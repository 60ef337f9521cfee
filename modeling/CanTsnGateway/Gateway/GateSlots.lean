import Mathlib.Data.Set.Pairwise.Basic
import CanTsnGateway.Model.TasGate

/-!
# The slots of the gate list

`gcl_locate` walks the gate list with a 32-bit accumulator.  For every list of positive
intervals that fill the cycle the accumulator is the sum of the intervals passed, the
walk ends inside the list, and the slots it reports partition the cycle
(`gclLocate_partitions`).
-/

namespace CanTsn

open TimeSlots

/-- Entry `idx` is the one that `tcy` is in, and the edges are its own. -/
structure SlotOf (gcl : List GclEntry) (tcy : UInt32) (r : GclSlot) : Prop where
  idx_lt : r.idx.toNat < gcl.length
  start_le : r.slotStartNs ≤ tcy
  lt_end : tcy < r.slotEndNs
  start_eq : r.slotStartNs.toNat = ((intervals gcl).take r.idx.toNat).sum
  length_eq : r.slotEndNs.toNat - r.slotStartNs.toNat = gcl[r.idx.toNat].timeIntervalNs.toNat

/-- The cycle times of a reported slot. -/
def slotTimes (r : GclSlot) : Set Nat := Set.Ico r.slotStartNs.toNat r.slotEndNs.toNat

/-- The slots reported over all cycle times. -/
def reportedSlots (gcl : List GclEntry) : Set (Set Nat) :=
  {x | ∃ tcy < cycleNs, x = slotTimes (gclLocate gcl tcy)}

/-- The accumulator of the loop before entry `k`. -/
def gclAcc (gcl : List GclEntry) (k : Nat) : UInt32 :=
  (gcl.take k).foldl (fun acc e => acc + e.timeIntervalNs) 0

/-! ## The accumulator -/

theorem gclAcc_succ (gcl : List GclEntry) (k : Nat) (hk : k < gcl.length) :
    gclAcc gcl (k + 1) = gclAcc gcl k + gcl[k].timeIntervalNs := by
  unfold gclAcc
  rw [List.take_succ_eq_append_getElem hk, List.foldl_append]
  rfl

theorem length_intervals (gcl : List GclEntry) : (intervals gcl).length = gcl.length := List.length_map _

theorem startOf_intervals_succ (gcl : List GclEntry) (k : Nat) (hk : k < gcl.length) :
    startOf (intervals gcl) (k + 1) = startOf (intervals gcl) k + gcl[k].timeIntervalNs.toNat := by
  rw [startOf_succ _ k (by rwa [length_intervals])]
  simp only [intervals, List.getElem_map]

/-- No addition of the walk wraps. -/
theorem toNat_gclAcc (gcl : List GclEntry) (hok : GateListOk gcl) (k : Nat) (hk : k ≤ gcl.length) :
    (gclAcc gcl k).toNat = startOf (intervals gcl) k := by
  induction k with
  | zero => rfl
  | succ k ih =>
    have hle := startOf_le_sum (intervals gcl) (k + 1)
    rw [hok.sum_eq, startOf_intervals_succ gcl k hk] at hle
    rw [gclAcc_succ gcl k hk, UInt32.toNat_add, ih (Nat.le_of_succ_le hk), startOf_intervals_succ gcl k hk]
    omega

/-- The walk comes to entry `k` with this accumulator, unless it has stopped before. -/
theorem gclLoop_at (gcl : List GclEntry) (hok : GateListOk gcl) (tcy : UInt32) (k : Nat)
    (hk : k ≤ gcl.length) (hpast : startOf (intervals gcl) k ≤ tcy.toNat) :
    gclLoop tcy gcl 0 0 = gclLoop tcy (gcl.drop k) k.toUInt32 (gclAcc gcl k) := by
  induction k with
  | zero => rfl
  | succ k ih =>
    have hmono := startOf_mono (intervals gcl) (Nat.le_succ k)
    have hnext : ¬ tcy < gclAcc gcl k + gcl[k].timeIntervalNs := by
      rw [← gclAcc_succ gcl k hk, UInt32.lt_iff_toNat_lt, toNat_gclAcc gcl hok (k + 1) hk]
      omega
    rw [ih (Nat.le_of_succ_le hk) (Nat.le_trans hmono hpast), List.drop_eq_getElem_cons hk, gclLoop,
      if_neg hnext, gclAcc_succ gcl k hk]
    have hidx : k.toUInt32 + 1 = (k + 1).toUInt32 := by simp
    rw [hidx]

/-! ## The slot found -/

/-- The walk stops inside the list, at the entry of `tcy`. -/
theorem gclLoop_eq_gclLocate (gcl : List GclEntry) (hok : GateListOk gcl) (tcy : UInt32)
    (h : tcy < cycleNs) : gclLoop tcy gcl 0 0 = some (gclLocate gcl tcy) ∧
      slotAt (intervals gcl) tcy.toNat = some (gclLocate gcl tcy).idx.toNat := by
  have hlt : tcy.toNat < (intervals gcl).sum := by
    rw [hok.sum_eq]
    exact UInt32.lt_iff_toNat_lt.1 h
  have hlen := length_le_sum_intervals gcl hok.pos
  have hsum := hok.sum_eq
  obtain ⟨j, hj⟩ := exists_slotAt _ _ hlt
  obtain ⟨r, hr, -⟩ := gclLoop_spec tcy gcl 0 0 (by simp; omega) (by simp; omega) (by simp) j
    (by simpa using hj)
  refine ⟨?_, by rw [(gclLocate_spec gcl hok tcy j hj).1, hj]⟩
  unfold gclLocate
  rw [hr]

theorem slotTimes_gclLocate (gcl : List GclEntry) (hok : GateListOk gcl) (tcy : UInt32) (h : tcy < cycleNs) :
    slotTimes (gclLocate gcl tcy) = slot (intervals gcl) (gclLocate gcl tcy).idx.toNat := by
  obtain ⟨-, hstart, hend⟩ := gclLocate_spec gcl hok tcy _ (gclLoop_eq_gclLocate gcl hok tcy h).2
  unfold slotTimes slot
  rw [hstart, hend]

theorem idx_gclLocate_lt (gcl : List GclEntry) (hok : GateListOk gcl) (tcy : UInt32) (h : tcy < cycleNs) :
    (gclLocate gcl tcy).idx.toNat < (intervals gcl).length :=
  ((slotAt_eq_some_iff _ _ _).1 (gclLoop_eq_gclLocate gcl hok tcy h).2).1

theorem slotOf_gclLocate (gcl : List GclEntry) (hok : GateListOk gcl) (tcy : UInt32) (h : tcy < cycleNs) :
    SlotOf gcl tcy (gclLocate gcl tcy) := by
  have hj := (gclLoop_eq_gclLocate gcl hok tcy h).2
  obtain ⟨-, hstart, hend⟩ := gclLocate_spec gcl hok tcy _ hj
  obtain ⟨hlt, hle, hin⟩ := (slotAt_eq_some_iff _ _ _).1 hj
  rw [length_intervals] at hlt
  have hlength := startOf_intervals_succ gcl _ hlt
  refine ⟨hlt, ?_, ?_, hstart, by omega⟩
  · rw [UInt32.le_iff_toNat_le, hstart]
    exact hle
  · rw [UInt32.lt_iff_toNat_lt, hend]
    exact hin

/-- There is one slot for a cycle time. -/
theorem SlotOf.slotAt_eq {gcl : List GclEntry} {tcy : UInt32} {r : GclSlot} (h : SlotOf gcl tcy r) :
    slotAt (intervals gcl) tcy.toNat = some r.idx.toNat ∧
      r.slotEndNs.toNat = startOf (intervals gcl) (r.idx.toNat + 1) := by
  have hle := UInt32.le_iff_toNat_le.1 h.start_le
  have hin := UInt32.lt_iff_toNat_lt.1 h.lt_end
  have hstart : r.slotStartNs.toNat = startOf (intervals gcl) r.idx.toNat := h.start_eq
  have hlength := h.length_eq
  have hend := startOf_intervals_succ gcl _ h.idx_lt
  refine ⟨(slotAt_eq_some_iff _ _ _).2 ⟨?_, ?_, ?_⟩, ?_⟩
  · rw [length_intervals]
    exact h.idx_lt
  · omega
  · omega
  · omega

theorem SlotOf.eq {gcl : List GclEntry} {tcy : UInt32} {r r' : GclSlot} (h : SlotOf gcl tcy r)
    (h' : SlotOf gcl tcy r') : r = r' := by
  obtain ⟨hslot, hend⟩ := h.slotAt_eq
  obtain ⟨hslot', hend'⟩ := h'.slotAt_eq
  have hidx : r.idx.toNat = r'.idx.toNat := Option.some.inj (hslot.symm.trans hslot')
  have hstart := h.start_eq
  have hstart' := h'.start_eq
  rw [hidx] at hstart hend
  cases r
  cases r'
  rw [GclSlot.mk.injEq]
  exact ⟨UInt32.toNat_inj.1 hidx, UInt32.toNat_inj.1 (hstart.trans hstart'.symm),
    UInt32.toNat_inj.1 (hend.trans hend'.symm)⟩

/-! ## The partition -/

theorem reportedSlots_pairwiseDisjoint (gcl : List GclEntry) (hok : GateListOk gcl) :
    (reportedSlots gcl).PairwiseDisjoint id := by
  rintro x ⟨t, ht, rfl⟩ y ⟨t', ht', rfl⟩ hne
  rw [slotTimes_gclLocate gcl hok t ht, slotTimes_gclLocate gcl hok t' ht'] at hne ⊢
  exact disjoint_slot _ (idx_gclLocate_lt gcl hok t ht) (idx_gclLocate_lt gcl hok t' ht') fun hidx =>
    hne (by rw [hidx])

theorem sUnion_reportedSlots (gcl : List GclEntry) (hok : GateListOk gcl) :
    ⋃₀ reportedSlots gcl = Set.Ico 0 cycleNs.toNat := by
  have hcycle : Set.Ico 0 cycleNs.toNat = ⋃ i < (intervals gcl).length, slot (intervals gcl) i := by
    rw [iUnion_slot, hok.sum_eq]
    ext x
    rw [Set.mem_Ico, and_iff_right (Nat.zero_le x)]
    rfl
  rw [hcycle]
  ext x
  simp only [Set.mem_sUnion, Set.mem_iUnion]
  constructor
  · rintro ⟨_, ⟨t, ht, rfl⟩, hx⟩
    rw [slotTimes_gclLocate gcl hok t ht] at hx
    exact ⟨_, idx_gclLocate_lt gcl hok t ht, hx⟩
  · rintro ⟨i, -, -, hx⟩
    -- an instant lies in the slot reported for itself
    have hsum := startOf_le_sum (intervals gcl) (i + 1)
    rw [hok.sum_eq] at hsum
    have hx32 : x.toUInt32.toNat = x := by
      rw [Nat.toUInt32, UInt32.toNat_ofNat']
      omega
    have ht : x.toUInt32 < cycleNs := by
      rw [UInt32.lt_iff_toNat_lt, hx32]
      exact Nat.lt_of_lt_of_le hx hsum
    have hslot := slotOf_gclLocate gcl hok _ ht
    refine ⟨_, ⟨_, ht, rfl⟩, ?_, ?_⟩
    · have := UInt32.le_iff_toNat_le.1 hslot.start_le
      rwa [hx32] at this
    · have := UInt32.lt_iff_toNat_lt.1 hslot.lt_end
      rwa [hx32] at this

/-- **`gcl_locate` partitions the cycle.**  For every list of positive intervals that fill
the cycle and every cycle time the loop itself returns, with the one entry that the cycle
time is in and its edges; up to there its accumulator is the exact sum of the intervals
passed; and the slots reported over all cycle times are disjoint and cover the cycle. -/
theorem gclLocate_partitions (gcl : List GclEntry) (hok : GateListOk gcl) :
    (∀ tcy < cycleNs, gclLoop tcy gcl 0 0 = some (gclLocate gcl tcy) ∧
      SlotOf gcl tcy (gclLocate gcl tcy) ∧ (∀ r, SlotOf gcl tcy r → r = gclLocate gcl tcy) ∧
      ∀ k ≤ (gclLocate gcl tcy).idx.toNat,
        gclLoop tcy gcl 0 0 = gclLoop tcy (gcl.drop k) k.toUInt32 (gclAcc gcl k)) ∧
    (∀ k ≤ gcl.length, (gclAcc gcl k).toNat = ((intervals gcl).take k).sum) ∧
    (reportedSlots gcl).PairwiseDisjoint id ∧ ⋃₀ reportedSlots gcl = Set.Ico 0 cycleNs.toNat := by
  refine ⟨fun tcy h => ?_, toNat_gclAcc gcl hok, reportedSlots_pairwiseDisjoint gcl hok,
    sUnion_reportedSlots gcl hok⟩
  obtain ⟨hloop, hj⟩ := gclLoop_eq_gclLocate gcl hok tcy h
  have hslot := slotOf_gclLocate gcl hok tcy h
  refine ⟨hloop, hslot, fun r hr => hr.eq hslot, fun k hk => ?_⟩
  refine gclLoop_at gcl hok tcy k (Nat.le_of_lt (Nat.lt_of_le_of_lt hk hslot.idx_lt)) ?_
  exact Nat.le_trans (startOf_mono _ hk) ((slotAt_eq_some_iff _ _ _).1 hj).2.1

/-- The shipped list: 5 ms into the cycle its third slot starts. -/
theorem gclLocate_partitions_shipped :
    SlotOf gclMirror 5000000 ⟨2, 5000000, 9000000⟩ ∧ ⋃₀ reportedSlots gclMirror = Set.Ico 0 10000000 := by
  obtain ⟨hlocate, -, -, hcover⟩ := gclLocate_partitions gclMirror gclMirror_ok
  exact ⟨(hlocate 5000000 (by decide)).2.1, hcover⟩

end CanTsn
