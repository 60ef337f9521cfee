import CanTsnGateway.Model.GateControlList

/-!
# The software mirror and the programmed schedule

When the software's list and the MAC's come from one gate list, an open answer of the
software holds in the MAC for the whole guard margin (`mirror_refines_schedule`).  The
shipped lists are one list.
-/

namespace CanTsn

open TimeSlots

/-- The mirror of a configured list. -/
def mirrorOf (gcl : List GmacTxGateControl) : List GclEntry :=
  gcl.map fun e => ⟨e.timeInterval, e.gateControl.toUInt32⟩

/-- Base time 0, a cycle of 10 ms, and entries of 1 to 2^24 - 1 ns that fill it. -/
structure ScheduleOk (c : GmacTxTimeAwareShaper) : Prop where
  base : c.baseTimeSecond = 0 ∧ c.baseTimeNanoSecond = 0
  cycle : c.cycleTimeSecond = 0 ∧ c.cycleTimeNanoSecond = cycleNs
  interval : ∀ e ∈ c.gateControlList, 1 ≤ e.timeInterval.toNat ∧ e.timeInterval.toNat < 2 ^ 24
  sum_eq : (c.gateControlList.map fun e => e.timeInterval.toNat).sum = cycleNs.toNat

theorem intervals_mirrorOf (gcl : List GmacTxGateControl) :
    intervals (mirrorOf gcl) = gcl.map fun e => e.timeInterval.toNat := by
  unfold intervals mirrorOf
  rw [List.map_map]
  rfl

theorem mirrorOf_ok {c : GmacTxTimeAwareShaper} (h : ScheduleOk c) :
    GateListOk (mirrorOf c.gateControlList) where
  pos := by
    intro e he
    obtain ⟨g, hg, rfl⟩ := List.mem_map.1 he
    exact UInt32.lt_iff_toNat_lt.2 (h.interval g hg).1
  sum_eq := by rw [intervals_mirrorOf]; exact h.sum_eq

theorem toNat_macTimeNowNs (seconds nanoseconds : UInt32) :
    (macTimeNowNs seconds nanoseconds).toNat = timeNs seconds nanoseconds := by
  have hs := seconds.toNat_lt
  have hn := nanoseconds.toNat_lt
  have hsec : nsecPerSec.toNat = 1000000000 := rfl
  unfold macTimeNowNs timeNs
  rw [UInt64.toNat_add, UInt64.toNat_mul, UInt32.toNat_toUInt64, UInt32.toNat_toUInt64, hsec]
  omega

/-- The MAC's gate while it is in entry `j`. -/
theorem hwGateOpen_of_slot {c : GmacTxTimeAwareShaper} (h : ScheduleOk c) (f : UInt32) (t j : Nat)
    (hj : slotAt (intervals (mirrorOf c.gateControlList)) (t % 10000000) = some j) :
    hwGateOpen (gmacTxTimeAwareShaperInit c) f t =
      ((((gclAt (mirrorOf c.gateControlList) j).gateControlBits >>> f) &&& 0x1) != 0) := by
  have hlt : j < c.gateControlList.length := by
    have := ((slotAt_eq_some_iff _ _ _).1 hj).1
    rwa [intervals_mirrorOf, List.length_map] at this
  have h24 : ∀ e ∈ c.gateControlList, e.timeInterval.toNat < 2 ^ 24 := fun e he => (h.interval e he).2
  have htime : (t - timeNs (gmacTxTimeAwareShaperInit c).btrSecond (gmacTxTimeAwareShaperInit c).btrNanoSecond) %
      timeNs (gmacTxTimeAwareShaperInit c).ctrSecond (gmacTxTimeAwareShaperInit c).ctrNanoSecond =
        t % 10000000 := by
    show (t - timeNs c.baseTimeSecond c.baseTimeNanoSecond) %
      timeNs c.cycleTimeSecond c.cycleTimeNanoSecond = _
    rw [h.base.1, h.base.2, h.cycle.1, h.cycle.2]
    rfl
  unfold hwGateOpen
  rw [htime, wordIntervals_eq c h24, ← intervals_mirrorOf, hj, words_eq]
  simp only
  have hmirror : j < (mirrorOf c.gateControlList).length := by
    unfold mirrorOf
    rwa [List.length_map]
  rw [gclAt_eq_getElem _ _ hmirror, List.getD_eq_getElem?_getD, List.getElem?_map,
    List.getElem?_eq_getElem hlt, Option.map_some, Option.getD_some,
    gateWord_shiftRight _ (h24 _ (List.getElem_mem hlt))]
  simp only [mirrorOf, List.getElem_map]

/-- **The mirror refines the schedule.**  An open gate of the mirror is open in the MAC
from the clock value on for the guard margin; and the shipped lists are one list that
meets the hypotheses. -/
theorem mirror_refines_schedule :
    (∀ (c : GmacTxTimeAwareShaper), ScheduleOk c → ∀ (f seconds nanoseconds : UInt32), f ≤ 2 →
      nanoseconds < 1000000000 →
      tasIsGateOpenFifox (mirrorOf c.gateControlList) (macTimeNowNs seconds nanoseconds) f = true →
      ∀ t, timeNs seconds nanoseconds ≤ t → t < timeNs seconds nanoseconds + slotMarginNs.toNat →
        hwGateOpen (gmacTxTimeAwareShaperInit c) f t = true) ∧
    ScheduleOk gmac0TxTimeShaperPB ∧ gclMirror = mirrorOf gmac0TxTimeShaperPB.gateControlList := by
  refine ⟨fun c h f seconds nanoseconds _ _ hopen t hle hlt => ?_, ?_, by decide⟩
  · have hok := mirrorOf_ok h
    have hmargin : slotMarginNs.toNat = 100000 := rfl
    obtain ⟨-, j, hj, hend, hbit⟩ := (tasIsGateOpenFifox_iff _ hok _ f).1 hopen
    rw [toNat_macTimeNowNs] at hj hend
    -- the margin does not leave the slot, so the cycle does not wrap in between
    have hcycle : startOf (intervals (mirrorOf c.gateControlList)) (j + 1) ≤ 10000000 :=
      hok.sum_eq ▸ startOf_le_sum _ _
    have hslot := slotAt_eq_of_between _ _ (t % 10000000) j hj (by omega) (by omega)
    rw [hwGateOpen_of_slot h f t j hslot]
    simpa using hbit
  · exact ⟨by decide, by decide, by decide, by decide⟩

/-- The shipped schedule, FIFO 0, five seconds after the epoch. -/
theorem mirror_refines_schedule_five_seconds :
    hwGateOpen (gmacTxTimeAwareShaperInit gmac0TxTimeShaperPB) 0 5000099999 = true :=
  mirror_refines_schedule.1 gmac0TxTimeShaperPB mirror_refines_schedule.2.1 0 5 0 (by decide) (by decide)
    (by decide) 5000099999 (by decide) (by decide)

end CanTsn
