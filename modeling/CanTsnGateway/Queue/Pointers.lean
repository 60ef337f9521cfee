import CanTsnGateway.Lib.Ring
import CanTsnGateway.Model.FreeRtosQueue

/-!
# The pointers of a queue

The storage area is an array of `uxLength` slots.  `pcWriteTo` and `pcReadFrom` point to
slots and go round: one slot further on wraps at `pcTail`, one slot back at `pcHead`.

    next pointer, wrapped = pointer of the next position                    (wrap_next)
    previous pointer, wrapped = pointer of the previous position            (wrap_prev)
-/

namespace CanTsn

open ByteMemory

namespace QueueDefinition

/-- The storage area lies inside the address space, an item's length away from its start. -/
structure Storage (q : QueueDefinition) : Prop where
  length_pos : 0 < q.uxLength.toNat
  end_lt : q.pcHead.toNat + q.uxLength.toNat * q.uxItemSize.toNat < 2 ^ 32
  size_le : q.uxItemSize.toNat ≤ q.pcHead.toNat
  tail : q.pcTail.toNat = q.pcHead.toNat + q.uxLength.toNat * q.uxItemSize.toNat

/-- The pointer to the slot of position `k`. -/
def slotPtr (q : QueueDefinition) (k : Nat) : UInt32 :=
  slotAddr q.pcHead q.uxItemSize.toNat (k % q.uxLength.toNat)

section

variable {q : QueueDefinition} (k : Nat)

theorem toNat_slotPtr (h : q.Storage) :
    (q.slotPtr k).toNat = q.pcHead.toNat + k % q.uxLength.toNat * q.uxItemSize.toNat := by
  have hend := end_le (Nat.mod_lt k h.length_pos) q.uxItemSize.toNat
  have := h.end_lt
  exact toNat_slotAddr (by omega)

theorem slotPtr_lap (q : QueueDefinition) (k : Nat) : q.slotPtr (k + q.uxLength.toNat) = q.slotPtr k := by
  unfold slotPtr
  rw [Nat.add_mod_right]

theorem slotPtr_zero (q : QueueDefinition) : q.slotPtr 0 = q.pcHead := by
  unfold slotPtr slotAddr
  rw [Nat.zero_mod, Nat.zero_mul]
  exact UInt32.add_zero _

/-- All items of length 0 are at the head. -/
theorem slotPtr_of_size_zero (hsize : q.uxItemSize = 0) : q.slotPtr k = q.pcHead := by
  unfold slotPtr slotAddr
  rw [hsize]
  exact UInt32.add_zero _

/-- The slot after the last one is the first. -/
theorem mod_succ (h : q.Storage) :
    k % q.uxLength.toNat + 1 < q.uxLength.toNat ∧ (k + 1) % q.uxLength.toNat = k % q.uxLength.toNat + 1 ∨
      k % q.uxLength.toNat + 1 = q.uxLength.toNat ∧ (k + 1) % q.uxLength.toNat = 0 := by
  have hlt := Nat.mod_lt k h.length_pos
  have hwrap := Ring.wrap_succ (k := k) h.length_pos
  split at hwrap
  · exact Or.inr ⟨by omega, hwrap.symm⟩
  · exact Or.inl ⟨by omega, hwrap.symm⟩

theorem wrap_next (h : q.Storage) (hsize : q.uxItemSize ≠ 0) :
    (if q.slotPtr k + q.uxItemSize ≥ q.pcTail then q.pcHead else q.slotPtr k + q.uxItemSize) = q.slotPtr (k + 1) := by
  have hpos : 0 < q.uxItemSize.toNat := Nat.pos_of_ne_zero fun h0 => hsize (UInt32.toNat_inj.1 h0)
  have hptr := toNat_slotPtr k h
  have hptr' := toNat_slotPtr (k + 1) h
  have hend := h.end_lt
  have htail := h.tail
  have hle := end_le (Nat.mod_lt k h.length_pos) q.uxItemSize.toNat
  have hsum : (q.slotPtr k + q.uxItemSize).toNat =
      q.pcHead.toNat + (k % q.uxLength.toNat + 1) * q.uxItemSize.toNat := by
    rw [UInt32.toNat_add, hptr, Nat.succ_mul]
    omega
  apply UInt32.toNat_inj.1
  rcases mod_succ k h with ⟨hlt, hmod⟩ | ⟨hlast, hmod⟩
  · have hroom := end_le hlt q.uxItemSize.toNat
    have hnot : ¬ q.slotPtr k + q.uxItemSize ≥ q.pcTail := by
      rw [ge_iff_le, UInt32.le_iff_toNat_le]
      omega
    rw [if_neg hnot, hsum, hptr', hmod]
  · have hall : q.slotPtr k + q.uxItemSize ≥ q.pcTail := by
      rw [ge_iff_le, UInt32.le_iff_toNat_le, hsum, htail, hlast]
    rw [if_pos hall, hptr', hmod, Nat.zero_mul, Nat.add_zero]

theorem wrap_prev (h : q.Storage) (hsize : q.uxItemSize ≠ 0) :
    (if q.slotPtr (k + 1) - q.uxItemSize < q.pcHead then q.pcTail - q.uxItemSize
      else q.slotPtr (k + 1) - q.uxItemSize) = q.slotPtr k := by
  have hpos : 0 < q.uxItemSize.toNat := Nat.pos_of_ne_zero fun h0 => hsize (UInt32.toNat_inj.1 h0)
  have hptr := toNat_slotPtr k h
  have hptr' := toNat_slotPtr (k + 1) h
  have hend := h.end_lt
  have htail := h.tail
  have hroom := h.size_le
  have hsub : (q.slotPtr (k + 1) - q.uxItemSize).toNat = (q.slotPtr (k + 1)).toNat - q.uxItemSize.toNat :=
    UInt32.toNat_sub_of_le _ _ (by rw [UInt32.le_iff_toNat_le]; omega)
  apply UInt32.toNat_inj.1
  rcases mod_succ k h with ⟨_, hmod⟩ | ⟨hlast, hmod⟩
  · rw [hmod, Nat.succ_mul] at hptr'
    have hnot : ¬ q.slotPtr (k + 1) - q.uxItemSize < q.pcHead := by
      rw [UInt32.lt_iff_toNat_lt]
      omega
    rw [if_neg hnot]
    omega
  · rw [hmod, Nat.zero_mul] at hptr'
    have hback : q.slotPtr (k + 1) - q.uxItemSize < q.pcHead := by
      rw [UInt32.lt_iff_toNat_lt]
      omega
    rw [← hlast, Nat.succ_mul] at htail
    rw [if_pos hback, UInt32.toNat_sub_of_le _ _ (by rw [UInt32.le_iff_toNat_le]; omega)]
    omega

end

end QueueDefinition

end CanTsn
