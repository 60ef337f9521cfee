import CanTsnGateway.Lib.TimeSlots

/-!
# The software view of the transmit gates

`GCL_MIRROR` repeats the gate control list of the MAC in software.  `gclLocate` finds
the entry the cycle time is in, `tasIsGateOpenFifox` says whether the gate of a FIFO is
open and stays open for the guard margin, `tasRemainingOpenTimeNsFifox` for how long it
says so.  `tasGetTimeUntilNextOpen` has the schedule in constants of its own.

    GateListOk gcl → (tasIsGateOpenFifox gcl now f = true ↔
      f ≤ 2 ∧ ∃ j, the entry of `now` is j ∧ now + margin is before its end ∧ bit f is set)
                                                              (tasIsGateOpenFifox_iff)
-/

namespace CanTsn

open TimeSlots

def nsecPerSec : UInt64 := 1000000000
def cycleNs : UInt32 := 10000000
def slotMarginNs : UInt32 := 100000

/-- `GclEntry` -/
structure GclEntry where
  timeIntervalNs : UInt32
  gateControlBits : UInt32
deriving DecidableEq

/-- `GCL_MIRROR` as shipped -/
def gclMirror : List GclEntry :=
  [⟨1000000, 0b001⟩, ⟨4000000, 0b010⟩, ⟨4000000, 0b100⟩, ⟨1000000, 0b000⟩]

/-- Entry `i`; the lookup never reads past a list that has an entry. -/
def gclAt (gcl : List GclEntry) (i : Nat) : GclEntry := gcl.getD i ⟨0, 0⟩

/-- `mac_time_now_ns`, from the two system time registers. -/
def macTimeNowNs (seconds nanoseconds : UInt32) : UInt64 :=
  seconds.toUInt64 * nsecPerSec + nanoseconds.toUInt64

/-- What `gcl_locate` returns and stores. -/
structure GclSlot where
  idx : UInt32
  slotStartNs : UInt32
  slotEndNs : UInt32
deriving DecidableEq

/-- The loop of `gcl_locate` over the entries from index `i` on. -/
def gclLoop (tcy : UInt32) : List GclEntry → (i acc : UInt32) → Option GclSlot
  | [], _, _ => none
  | e :: es, i, acc =>
    let next := acc + e.timeIntervalNs
    if tcy < next then some ⟨i, acc, next⟩ else gclLoop tcy es (i + 1) next

/-- `gcl_locate` -/
def gclLocate (gcl : List GclEntry) (tcy : UInt32) : GclSlot :=
  match gclLoop tcy gcl 0 0 with
  | some r => r
  | none =>
    ⟨gcl.length.toUInt32 - 1, cycleNs - (gclAt gcl (gcl.length - 1)).timeIntervalNs, cycleNs⟩

/-- `mac_time_now_ns() % CYCLE_NS`, in 32 bits -/
def cycleTime (now : UInt64) : UInt32 := (now % cycleNs.toUInt64).toUInt32

/-- The end of the slot less the guard margin; the slot's start when it is too short. -/
def effEnd (r : GclSlot) : UInt32 :=
  if r.slotEndNs > slotMarginNs then r.slotEndNs - slotMarginNs else r.slotStartNs

/-- `TAS_IsGateOpen_FIFOx` at clock value `now` -/
def tasIsGateOpenFifox (gcl : List GclEntry) (now : UInt64) (fifoIndex : UInt32) : Bool :=
  if fifoIndex > 2 then false
  else
    let tcy := cycleTime now
    let r := gclLocate gcl tcy
    if effEnd r ≤ r.slotStartNs then false
    else if tcy < r.slotStartNs ∨ tcy ≥ effEnd r then false
    else (((gclAt gcl r.idx.toNat).gateControlBits >>> fifoIndex) &&& 0x1) != 0

/-- `TAS_RemainingOpenTimeNs_FIFOx` at clock value `now` -/
def tasRemainingOpenTimeNsFifox (gcl : List GclEntry) (now : UInt64) (fifoIndex : UInt32) : UInt32 :=
  if fifoIndex > 2 then 0
  else
    let tcy := cycleTime now
    let r := gclLocate gcl tcy
    if effEnd r ≤ r.slotStartNs then 0
    else
      let gate := (gclAt gcl r.idx.toNat).gateControlBits
      if tcy ≥ r.slotStartNs ∧ tcy < effEnd r ∧ (gate >>> fifoIndex) &&& 0x1 ≠ 0 then effEnd r - tcy
      else 0

def tasCycleTimeNs : UInt32 := 10000000
def tasGateOpenStartNs : UInt32 := 1000000

/-- `TAS_GetTimeUntilNextOpen` -/
def tasGetTimeUntilNextOpen (currentTimeNs : UInt32) : UInt32 :=
  let timeInCycle := currentTimeNs % tasCycleTimeNs
  if timeInCycle < tasGateOpenStartNs then tasGateOpenStartNs - timeInCycle
  else tasCycleTimeNs - timeInCycle + tasGateOpenStartNs

/-- `TC_to_FIFO` -/
def tcToFifo (trafficClass : UInt8) : UInt8 :=
  if trafficClass ≤ 2 then 0 else if trafficClass ≤ 5 then 1 else 2

/-! ## What the functions compute -/

/-- The slot durations in nanoseconds. -/
def intervals (gcl : List GclEntry) : List Nat := gcl.map (·.timeIntervalNs.toNat)

/-- Positive intervals that fill the cycle. -/
structure GateListOk (gcl : List GclEntry) : Prop where
  pos : ∀ e ∈ gcl, 0 < e.timeIntervalNs
  sum_eq : (intervals gcl).sum = 10000000

theorem gclMirror_ok : GateListOk gclMirror := ⟨by decide, by decide⟩

theorem length_le_sum_intervals (gcl : List GclEntry) (h : ∀ e ∈ gcl, 0 < e.timeIntervalNs) :
    gcl.length ≤ (intervals gcl).sum := by
  induction gcl with
  | nil => simp
  | cons e es ih =>
    have he : 0 < e.timeIntervalNs.toNat := h e List.mem_cons_self
    have := ih fun e' h' => h e' (List.mem_cons_of_mem _ h')
    simp only [intervals, List.map_cons, List.sum_cons, List.length_cons] at this ⊢
    omega

theorem gclAt_eq_getElem (gcl : List GclEntry) (i : Nat) (h : i < gcl.length) :
    gclAt gcl i = gcl[i] := by
  unfold gclAt
  rw [List.getD_eq_getElem?_getD, List.getElem?_eq_getElem h, Option.getD_some]

/-- The 32-bit accumulator follows the slot edges as long as their sum fits. -/
theorem gclLoop_spec (tcy : UInt32) (es : List GclEntry) (i acc : UInt32)
    (hlen : i.toNat + es.length < 2 ^ 32) (hsum : acc.toNat + (intervals es).sum < 2 ^ 32)
    (hacc : acc.toNat ≤ tcy.toNat) (j : Nat)
    (hj : slotAt (intervals es) (tcy.toNat - acc.toNat) = some j) :
    ∃ r, gclLoop tcy es i acc = some r ∧ r.idx.toNat = i.toNat + j ∧
      r.slotStartNs.toNat = acc.toNat + startOf (intervals es) j ∧
      r.slotEndNs.toNat = acc.toNat + startOf (intervals es) (j + 1) := by
  induction es generalizing i acc j with
  | nil => simp [intervals, slotAt] at hj
  | cons e es ih =>
    simp only [intervals, List.map_cons, List.sum_cons, List.length_cons] at hj hsum hlen
    have hnext : (acc + e.timeIntervalNs).toNat = acc.toNat + e.timeIntervalNs.toNat := by
      rw [UInt32.toNat_add]; omega
    have hlt : tcy < acc + e.timeIntervalNs ↔ tcy.toNat < acc.toNat + e.timeIntervalNs.toNat := by
      rw [UInt32.lt_iff_toNat_lt, hnext]
    unfold slotAt at hj
    unfold gclLoop
    simp only [hlt]
    split at hj
    · next hin =>
      obtain rfl := Option.some.inj hj
      rw [if_pos (by omega)]
      refine ⟨_, rfl, rfl, rfl, ?_⟩
      simp only [hnext, intervals, List.map_cons, startOf_cons_succ, startOf_zero, Nat.add_zero]
    · next hout =>
      obtain ⟨j', hj', rfl⟩ := Option.map_eq_some_iff.1 hj
      rw [if_neg (by omega)]
      have hi : (i + 1).toNat = i.toNat + 1 := by
        rw [UInt32.toNat_add, UInt32.toNat_one]; omega
      rw [Nat.sub_sub, ← hnext] at hj'
      obtain ⟨r, hr, h1, h2, h3⟩ := ih (i + 1) (acc + e.timeIntervalNs) (by omega)
        (by rw [hnext]; unfold intervals; omega) (by omega) j' hj'
      refine ⟨r, hr, by omega, ?_, ?_⟩
      · rw [h2, hnext]
        simp only [intervals, List.map_cons, startOf_cons_succ]
        omega
      · rw [h3, hnext]
        simp only [intervals, List.map_cons, startOf_cons_succ]
        omega

theorem gclLocate_spec (gcl : List GclEntry) (hok : GateListOk gcl) (tcy : UInt32) (j : Nat)
    (hj : slotAt (intervals gcl) tcy.toNat = some j) :
    (gclLocate gcl tcy).idx.toNat = j ∧
      (gclLocate gcl tcy).slotStartNs.toNat = startOf (intervals gcl) j ∧
      (gclLocate gcl tcy).slotEndNs.toNat = startOf (intervals gcl) (j + 1) := by
  have hlen := length_le_sum_intervals gcl hok.pos
  have hsum := hok.sum_eq
  obtain ⟨r, hr, h1, h2, h3⟩ := gclLoop_spec tcy gcl 0 0 (by simp; omega) (by simp; omega)
    (by simp) j (by simpa using hj)
  unfold gclLocate
  rw [hr]
  simp only [UInt32.toNat_zero, Nat.zero_add] at h1 h2 h3
  exact ⟨h1, h2, h3⟩

theorem toNat_cycleTime (now : UInt64) : (cycleTime now).toNat = now.toNat % 10000000 := by
  have h : (now % cycleNs.toUInt64).toNat = now.toNat % 10000000 := by
    rw [UInt64.toNat_mod]; rfl
  have hlt : now.toNat % 10000000 < 10000000 := Nat.mod_lt _ (by decide)
  unfold cycleTime
  rw [UInt64.toNat_toUInt32, h]
  omega

theorem effEnd_spec (r : GclSlot) :
    (100000 < r.slotEndNs.toNat ∧ (effEnd r).toNat = r.slotEndNs.toNat - 100000) ∨
      (r.slotEndNs.toNat ≤ 100000 ∧ (effEnd r).toNat = r.slotStartNs.toNat) := by
  have hm : slotMarginNs.toNat = 100000 := rfl
  unfold effEnd
  split
  · next h =>
    refine Or.inl ⟨UInt32.lt_iff_toNat_lt.1 h, ?_⟩
    rw [UInt32.toNat_sub_of_le _ _ (UInt32.le_of_lt h), hm]
  · next h => exact Or.inr ⟨Nat.le_of_not_lt fun hlt => h (UInt32.lt_iff_toNat_lt.2 hlt), rfl⟩

/-- **The gate query**, for every gate list that fills the cycle. -/
theorem tasIsGateOpenFifox_iff (gcl : List GclEntry) (hok : GateListOk gcl) (now : UInt64)
    (f : UInt32) :
    tasIsGateOpenFifox gcl now f = true ↔
      f.toNat ≤ 2 ∧ ∃ j, slotAt (intervals gcl) (now.toNat % 10000000) = some j ∧
        now.toNat % 10000000 + 100000 < startOf (intervals gcl) (j + 1) ∧
        ((gclAt gcl j).gateControlBits >>> f) &&& 0x1 ≠ 0 := by
  have hlt : now.toNat % 10000000 < (intervals gcl).sum := by
    rw [hok.sum_eq]; exact Nat.mod_lt _ (by decide)
  obtain ⟨j, hj⟩ := exists_slotAt _ _ hlt
  have htcy := toNat_cycleTime now
  obtain ⟨h1, h2, h3⟩ := gclLocate_spec gcl hok (cycleTime now) j (by rw [htcy]; exact hj)
  obtain ⟨-, hs, he⟩ := (slotAt_eq_some_iff _ _ _).1 hj
  have hend := effEnd_spec (gclLocate gcl (cycleTime now))
  have hf : f > 2 ↔ 2 < f.toNat := UInt32.lt_iff_toNat_lt
  rw [h2, h3] at hend
  unfold tasIsGateOpenFifox
  simp only [hf, UInt32.le_iff_toNat_le, UInt32.lt_iff_toNat_lt, h1, h2, htcy, ge_iff_le]
  constructor
  · intro h
    split at h
    · cases h
    split at h
    · cases h
    split at h
    · cases h
    · next hf2 hshort hin => exact ⟨by omega, j, hj, by omega, by simpa using h⟩
  · rintro ⟨hf2, j', hj', hmargin, hbit⟩
    obtain rfl := Option.some.inj (hj.symm.trans hj')
    rw [if_neg (by omega), if_neg (by omega), if_neg (by omega)]
    simpa using hbit

end CanTsn
