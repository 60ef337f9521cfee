import Mathlib.Data.Nat.Bitwise
import CanTsnGateway.Lib.Pages

/-!
# Pages of 4096 bytes

`check4KBBoundaryCross` and `bytesTo4KBBoundary` are helpers that the file offers and the
task never calls.  They compute with 32-bit addresses, `leavesPage` and `Pages.toEnd` with
numbers; for an object inside the address space the two agree.

    addr + len ≤ 2^32 → check4KBBoundaryCross addr len = leavesPage addr len
                                                           (check4KBBoundaryCross_eq)
    addr + len ≤ 2^32 → (check4KBBoundaryCross addr len = false ↔ OnePage addr len)
                                                           (check4KBBoundaryCross_eq_false_iff)
    check4KBBoundaryCross addr len ↔ the object crosses a page
                                   ↔ len > bytesTo4KBBoundary addr       (pageHelpers_agree)
-/

namespace CanTsn

open Pages

/-- `PAGE_SIZE_4KB` -/
def pageSize4KB : UInt32 := 0x1000

/-- `PAGE_MASK_4KB` -/
def pageMask4KB : UInt32 := 0xFFF

/-- `Check_4KB_Boundary_Cross`, with 32-bit addresses -/
def check4KBBoundaryCross (bufAddr : UInt32) (txLen : UInt16) : Bool :=
  if txLen = 0 then false
  else
    let pageEnd := (bufAddr &&& ~~~0xFFF) + 0x1000 - 1
    let bufEnd := bufAddr + txLen.toUInt32 - 1
    bufEnd > pageEnd

/-- `Bytes_To_4KB_Boundary`, with 32-bit addresses -/
def bytesTo4KBBoundary (bufAddr : UInt32) : UInt16 :=
  let offset := bufAddr &&& pageMask4KB
  (pageSize4KB - offset).toUInt16

/-- The `n` bytes from `addr` on are in one page. -/
def OnePage (addr : UInt32) (n : Nat) : Prop :=
  ∀ k < n, (addr.toNat + k) / 4096 = addr.toNat / 4096

theorem onePage_iff_offset (addr : UInt32) (n : Nat) : OnePage addr n ↔ addr.toNat % 4096 + n ≤ 4096 ∨ n = 0 := by
  unfold OnePage
  constructor
  · intro h
    rcases Nat.eq_zero_or_pos n with hn | hn
    · exact Or.inr hn
    · have := h (n - 1) (by omega)
      omega
  · rintro (h | rfl) k hk
    · omega
    · omega

theorem onePage_iff_not_crosses (addr : UInt32) (n : Nat) : OnePage addr n ↔ ¬ Crosses 4096 addr.toNat n := by
  rw [onePage_iff_offset, crosses_iff (by decide)]
  unfold toEnd
  omega

/-! ## Addresses as numbers -/

theorem toNat_pageOffset (addr : UInt32) : (addr &&& 0xFFF).toNat = addr.toNat % 4096 := by
  rw [UInt32.toNat_and]
  exact Nat.and_two_pow_sub_one_eq_mod addr.toNat 12

theorem and_not_add_and (x m : UInt32) : (x &&& ~~~m) + (x &&& m) = x := by
  apply UInt32.toBitVec_inj.1
  rw [UInt32.toBitVec_add, UInt32.toBitVec_and, UInt32.toBitVec_and, UInt32.toBitVec_not,
    BitVec.add_eq_or_of_and_eq_zero]
  · ext i hi
    simp only [BitVec.getElem_or, BitVec.getElem_and, BitVec.getElem_not]
    cases x.toBitVec[i] <;> cases m.toBitVec[i] <;> rfl
  · ext i hi
    simp only [BitVec.getElem_and, BitVec.getElem_not, BitVec.getElem_zero]
    cases x.toBitVec[i] <;> cases m.toBitVec[i] <;> rfl

theorem toNat_pageStart (addr : UInt32) :
    (addr &&& ~~~0xFFF).toNat = addr.toNat - addr.toNat % 4096 := by
  have hsum := congrArg UInt32.toNat (and_not_add_and addr 0xFFF)
  have hlt := (addr &&& ~~~0xFFF).toNat_lt
  have haddr := addr.toNat_lt
  rw [UInt32.toNat_add, toNat_pageOffset] at hsum
  omega

/-- In the last page `page_end` wraps twice, to 0 and back to the last address. -/
theorem toNat_pageEnd (addr : UInt32) :
    ((addr &&& ~~~0xFFF) + 0x1000 - 1).toNat = lastByte 4096 addr.toNat := by
  have h4096 : (0x1000 : UInt32).toNat = 4096 := rfl
  have haddr := addr.toNat_lt
  rw [UInt32.toNat_sub, UInt32.toNat_add, UInt32.toNat_one, toNat_pageStart, h4096]
  unfold lastByte
  omega

theorem toNat_bufEnd {addr : UInt32} {len : UInt16} (hpos : 0 < len.toNat)
    (h : addr.toNat + len.toNat ≤ 2 ^ 32) :
    (addr + len.toUInt32 - 1).toNat = addr.toNat + len.toNat - 1 := by
  rw [UInt32.toNat_sub, UInt32.toNat_add, UInt32.toNat_one, UInt16.toNat_toUInt32]
  omega

theorem toNat_bytesTo4KBBoundary (bufAddr : UInt32) :
    (bytesTo4KBBoundary bufAddr).toNat = toEnd 4096 bufAddr.toNat := by
  have h4096 : pageSize4KB.toNat = 4096 := rfl
  have hoff : (bufAddr &&& pageMask4KB).toNat = bufAddr.toNat % 4096 := toNat_pageOffset bufAddr
  have hmod := Nat.mod_lt bufAddr.toNat (show 0 < 4096 by decide)
  unfold bytesTo4KBBoundary toEnd
  simp only
  rw [UInt32.toNat_toUInt16, UInt32.toNat_sub, hoff, h4096]
  omega

/-! ## The helpers and the pages -/

/-- The test of `Check_4KB_Boundary_Cross` without a bound on the numbers. -/
def leavesPage (addr n : Nat) : Bool :=
  if n = 0 then false else lastByte 4096 addr < addr + n - 1

theorem leavesPage_iff (addr n : Nat) : leavesPage addr n = true ↔ Crosses 4096 addr n := by
  unfold leavesPage
  split
  · next hn =>
    rw [hn, crosses_iff (by decide)]
    exact iff_of_false Bool.false_ne_true (Nat.not_lt_zero _)
  · next hn => rw [decide_eq_true_eq, lastByte_lt_iff (by decide) addr n (Nat.pos_of_ne_zero hn)]

theorem check4KBBoundaryCross_eq {bufAddr : UInt32} {txLen : UInt16}
    (h : bufAddr.toNat + txLen.toNat ≤ 2 ^ 32) :
    check4KBBoundaryCross bufAddr txLen = leavesPage bufAddr.toNat txLen.toNat := by
  have hzero : txLen = 0 ↔ txLen.toNat = 0 := UInt16.toNat_inj.symm
  unfold check4KBBoundaryCross leavesPage
  simp only [hzero]
  split
  · rfl
  · next hn =>
    rw [decide_eq_decide, gt_iff_lt, UInt32.lt_iff_toNat_lt, toNat_pageEnd,
      toNat_bufEnd (Nat.pos_of_ne_zero hn) h]

theorem check4KBBoundaryCross_eq_false_iff (bufAddr : UInt32) (txLen : UInt16)
    (h : bufAddr.toNat + txLen.toNat ≤ 2 ^ 32) :
    check4KBBoundaryCross bufAddr txLen = false ↔ OnePage bufAddr txLen.toNat := by
  rw [check4KBBoundaryCross_eq h, onePage_iff_not_crosses, ← leavesPage_iff, Bool.not_eq_true]

/-- **The page helpers** are exact and agree, for every object inside the address space:
the 32-bit test is the test in numbers, it is true if the object has bytes in two pages,
and that is if the object is longer than what its page has left. -/
theorem pageHelpers_agree (bufAddr : UInt32) (txLen : UInt16) (h : bufAddr.toNat + txLen.toNat ≤ 2 ^ 32) :
    (check4KBBoundaryCross bufAddr txLen = true ↔ Crosses 4096 bufAddr.toNat txLen.toNat) ∧
    (check4KBBoundaryCross bufAddr txLen = true ↔ txLen > bytesTo4KBBoundary bufAddr) ∧
    1 ≤ bytesTo4KBBoundary bufAddr ∧ bytesTo4KBBoundary bufAddr ≤ 4096 ∧
    4096 ∣ bufAddr.toNat + (bytesTo4KBBoundary bufAddr).toNat ∧
    check4KBBoundaryCross bufAddr txLen = leavesPage bufAddr.toNat txLen.toNat ∧
    (bytesTo4KBBoundary bufAddr).toNat = toEnd 4096 bufAddr.toNat := by
  have hleft := toNat_bytesTo4KBBoundary bufAddr
  have hcross : check4KBBoundaryCross bufAddr txLen = true ↔ Crosses 4096 bufAddr.toNat txLen.toNat := by
    rw [check4KBBoundaryCross_eq h, leavesPage_iff]
  refine ⟨hcross, ?_, ?_, ?_, ?_, check4KBBoundaryCross_eq h, hleft⟩
  · rw [hcross, crosses_iff (by decide), gt_iff_lt, UInt16.lt_iff_toNat_lt, hleft]
  · rw [UInt16.le_iff_toNat_le, hleft]
    exact toEnd_pos (by decide) _
  · rw [UInt16.le_iff_toNat_le, hleft]
    exact toEnd_le _
  · rw [hleft]
    exact dvd_add_toEnd (by decide) _

/-- An object over the last two pages, up to the last address. -/
theorem pageHelpers_agree_last :
    check4KBBoundaryCross 0xFFFFEFFF 0x1001 = true ∧ Crosses 4096 0xFFFFEFFF 0x1001 ∧
      0x1001 > bytesTo4KBBoundary 0xFFFFEFFF := by
  obtain ⟨hcross, hleft, -⟩ := pageHelpers_agree 0xFFFFEFFF 0x1001 (by decide)
  have htrue : check4KBBoundaryCross 0xFFFFEFFF 0x1001 = true := by decide
  exact ⟨htrue, hcross.1 htrue, hleft.1 htrue⟩

end CanTsn
