import CanTsnGateway.Gateway.GateMirror

/-!
# Gate queries over time

The gate query and the remaining-time query read the clock, locate the slot and apply the
guard margin each on its own.  They agree, and the remaining time is exactly how long the
gate query stays true (`remaining_agrees`).  Both read the time of the cycle only, and a
second is a whole number of cycles: the seconds register does not matter
(`torn_read_decides_same`).

`tasGetTimeUntilNextOpen` has the schedule in constants that do not match the list: what
it waits for is the instant at which the gate of FIFO 0 has closed (`not_waitAgrees`).
-/

namespace CanTsn

open TimeSlots

/-- The seconds register `t` nanoseconds after the epoch. -/
def secondsReg (t : Nat) : UInt32 := (t / 1000000000).toUInt32

/-- The nanoseconds register `t` nanoseconds after the epoch. -/
def nanosecondsReg (t : Nat) : UInt32 := (t % 1000000000).toUInt32

/-- The gate of FIFO 0 is open when the wait from `t` ends, and it did not open earlier. -/
def WaitAgrees (t : UInt32) : Prop :=
  tasIsGateOpenFifox gclMirror (t.toUInt64 + (tasGetTimeUntilNextOpen t).toUInt64) 0 = true ∧
  ∀ u, t.toUInt64 < u → u < t.toUInt64 + (tasGetTimeUntilNextOpen t).toUInt64 →
    ¬ (tasIsGateOpenFifox gclMirror (u - 1) 0 = false ∧ tasIsGateOpenFifox gclMirror u 0 = true)

/-! ## Remaining time -/

theorem remaining_eq (gcl : List GclEntry) (now : UInt64) (f : UInt32) :
    tasRemainingOpenTimeNsFifox gcl now f =
      if tasIsGateOpenFifox gcl now f then effEnd (gclLocate gcl (cycleTime now)) - cycleTime now else 0 := by
  unfold tasRemainingOpenTimeNsFifox tasIsGateOpenFifox
  simp only
  by_cases hf : f > 2
  · rw [if_pos hf, if_pos hf]
    rfl
  by_cases hshort : effEnd (gclLocate gcl (cycleTime now)) ≤ (gclLocate gcl (cycleTime now)).slotStartNs
  · simp only [if_neg hf, if_pos hshort]
    rfl
  by_cases hin : cycleTime now < (gclLocate gcl (cycleTime now)).slotStartNs ∨
      cycleTime now ≥ effEnd (gclLocate gcl (cycleTime now))
  · simp only [if_neg hf, if_neg hshort, if_pos hin, Bool.false_eq_true, if_false]
    rw [if_neg]
    rintro ⟨hstart, hend, -⟩
    rcases hin with hin | hin
    · exact UInt32.not_lt.2 hstart hin
    · exact UInt32.not_lt.2 hin hend
  · simp only [if_neg hf, if_neg hshort, if_neg hin]
    obtain ⟨hstart, hend⟩ := not_or.1 hin
    simp [UInt32.not_lt.1 hstart, UInt32.not_le.1 hend]

theorem cycleTime_lt_effEnd {gcl : List GclEntry} {now : UInt64} {f : UInt32}
    (h : tasIsGateOpenFifox gcl now f = true) : cycleTime now < effEnd (gclLocate gcl (cycleTime now)) := by
  unfold tasIsGateOpenFifox at h
  simp only at h
  split at h
  · cases h
  split at h
  · cases h
  split at h
  · cases h
  · next hin => exact UInt32.not_le.1 (not_or.1 hin).2

theorem gateOpen_iff_remaining (gcl : List GclEntry) (now : UInt64) (f : UInt32) :
    tasIsGateOpenFifox gcl now f = true ↔ 0 < tasRemainingOpenTimeNsFifox gcl now f := by
  rw [remaining_eq]
  cases h : tasIsGateOpenFifox gcl now f with
  | false => simp
  | true =>
    have hlt := UInt32.lt_iff_toNat_lt.1 (cycleTime_lt_effEnd h)
    simp only [if_true, true_iff]
    rw [UInt32.lt_iff_toNat_lt, UInt32.toNat_sub_of_le _ _ (UInt32.le_of_lt (cycleTime_lt_effEnd h)),
      UInt32.toNat_zero]
    omega

/-- The slot of an open gate, and how far away the end of the slot is. -/
theorem remaining_spec {gcl : List GclEntry} (hok : GateListOk gcl) {now : UInt64} {f : UInt32}
    (h : tasIsGateOpenFifox gcl now f = true) :
    ∃ j, slotAt (intervals gcl) (now.toNat % 10000000) = some j ∧
      ((gclAt gcl j).gateControlBits >>> f) &&& 0x1 ≠ 0 ∧ f.toNat ≤ 2 ∧
      startOf (intervals gcl) (j + 1) =
        now.toNat % 10000000 + (tasRemainingOpenTimeNsFifox gcl now f).toNat + 100000 := by
  obtain ⟨hf, j, hj, hmargin, hbit⟩ := (tasIsGateOpenFifox_iff gcl hok now f).1 h
  refine ⟨j, hj, hbit, hf, ?_⟩
  have htcy := toNat_cycleTime now
  obtain ⟨-, -, hend⟩ := gclLocate_spec gcl hok (cycleTime now) j (by rw [htcy]; exact hj)
  have heff := effEnd_spec (gclLocate gcl (cycleTime now))
  rw [remaining_eq, if_pos h, UInt32.toNat_sub_of_le _ _ (UInt32.le_of_lt (cycleTime_lt_effEnd h)), htcy]
  omega

theorem toNat_add_remaining (gcl : List GclEntry) {now : UInt64} (f : UInt32) (hnow : now.toNat < 2 ^ 63) :
    (now + (tasRemainingOpenTimeNsFifox gcl now f).toUInt64).toNat =
      now.toNat + (tasRemainingOpenTimeNsFifox gcl now f).toNat := by
  have := (tasRemainingOpenTimeNsFifox gcl now f).toNat_lt
  rw [UInt64.toNat_add, UInt32.toNat_toUInt64]
  omega

theorem gateOpen_until {gcl : List GclEntry} (hok : GateListOk gcl) {now : UInt64} {f : UInt32}
    (hnow : now.toNat < 2 ^ 63) (h : tasIsGateOpenFifox gcl now f = true) :
    (∀ t, now ≤ t → t < now + (tasRemainingOpenTimeNsFifox gcl now f).toUInt64 →
      tasIsGateOpenFifox gcl t f = true) ∧
    tasIsGateOpenFifox gcl (now + (tasRemainingOpenTimeNsFifox gcl now f).toUInt64) f = false := by
  obtain ⟨j, hj, hbit, hf, hend⟩ := remaining_spec hok h
  have hadd := toNat_add_remaining gcl f hnow
  -- the slot ends in the cycle, so the cycle does not wrap before the margin is reached
  have hcycle : startOf (intervals gcl) (j + 1) ≤ 10000000 := hok.sum_eq ▸ startOf_le_sum _ _
  constructor
  · intro t hle hlt
    rw [UInt64.le_iff_toNat_le] at hle
    rw [UInt64.lt_iff_toNat_lt, hadd] at hlt
    refine (tasIsGateOpenFifox_iff gcl hok t f).2 ⟨hf, j, ?_, by omega, hbit⟩
    exact slotAt_eq_of_between _ _ _ j hj (by omega) (by omega)
  · rw [Bool.eq_false_iff]
    intro hopen
    obtain ⟨-, j', hj', hmargin, -⟩ := (tasIsGateOpenFifox_iff gcl hok _ f).1 hopen
    rw [hadd] at hj' hmargin
    have hslot := slotAt_eq_of_between _ _
      ((now.toNat + (tasRemainingOpenTimeNsFifox gcl now f).toNat) % 10000000) j hj (by omega) (by omega)
    obtain rfl := Option.some.inj (hslot.symm.trans hj')
    omega

/-- **The two queries agree.**  At every clock value below 2^63, which are all that the
registers can give, the gate is open if and only if the remaining time is positive, and
then it is open for exactly that long. -/
theorem remaining_agrees :
    (∀ seconds nanoseconds, (macTimeNowNs seconds nanoseconds).toNat < 2 ^ 63) ∧
    ∀ (gcl : List GclEntry), GateListOk gcl → ∀ (f : UInt32) (now : UInt64), now.toNat < 2 ^ 63 →
      (tasIsGateOpenFifox gcl now f = true ↔ 0 < tasRemainingOpenTimeNsFifox gcl now f) ∧
      (0 < tasRemainingOpenTimeNsFifox gcl now f →
        (∀ t, now ≤ t → t < now + (tasRemainingOpenTimeNsFifox gcl now f).toUInt64 →
          tasIsGateOpenFifox gcl t f = true) ∧
        tasIsGateOpenFifox gcl (now + (tasRemainingOpenTimeNsFifox gcl now f).toUInt64) f = false) := by
  refine ⟨fun seconds nanoseconds => ?_,
    fun gcl hok f now hnow => ⟨gateOpen_iff_remaining gcl now f, fun h => ?_⟩⟩
  · have hs := seconds.toNat_lt
    have hn := nanoseconds.toNat_lt
    rw [toNat_macTimeNowNs, timeNs]
    omega
  · exact gateOpen_until hok hnow ((gateOpen_iff_remaining gcl now f).2 h)

/-- The shipped list at clock value 0: FIFO 0 is open for 900 us. -/
theorem remaining_agrees_shipped :
    tasRemainingOpenTimeNsFifox gclMirror 0 0 = 900000 ∧
    (∀ t : UInt64, 0 ≤ t → t < 900000 → tasIsGateOpenFifox gclMirror t 0 = true) ∧
    tasIsGateOpenFifox gclMirror 900000 0 = false :=
  ⟨by decide, (remaining_agrees.2 gclMirror gclMirror_ok 0 0 (by decide)).2 (by decide)⟩

/-! ## Torn clock reads -/

/-- A second is a whole number of cycles. -/
theorem cycleTime_macTimeNowNs (seconds nanoseconds : UInt32) :
    cycleTime (macTimeNowNs seconds nanoseconds) = cycleTime nanoseconds.toUInt64 := by
  apply UInt32.toNat_inj.1
  rw [toNat_cycleTime, toNat_cycleTime, toNat_macTimeNowNs, timeNs, UInt32.toNat_toUInt64]
  omega

theorem gateOpen_congr (gcl : List GclEntry) (f : UInt32) {now now' : UInt64}
    (h : cycleTime now = cycleTime now') : tasIsGateOpenFifox gcl now f = tasIsGateOpenFifox gcl now' f := by
  unfold tasIsGateOpenFifox
  rw [h]

theorem remaining_congr (gcl : List GclEntry) (f : UInt32) {now now' : UInt64}
    (h : cycleTime now = cycleTime now') :
    tasRemainingOpenTimeNsFifox gcl now f = tasRemainingOpenTimeNsFifox gcl now' f := by
  rw [remaining_eq, remaining_eq, gateOpen_congr gcl f h, h]

theorem toNat_macTimeNowNs_regs (t : Nat) :
    (macTimeNowNs (secondsReg t) (nanosecondsReg t)).toNat = t % (2 ^ 32 * 1000000000) := by
  have hs : (secondsReg t).toNat = t / 1000000000 % 2 ^ 32 := UInt32.toNat_ofNat'
  have hn : (nanosecondsReg t).toNat = t % 1000000000 % 2 ^ 32 := UInt32.toNat_ofNat'
  rw [toNat_macTimeNowNs, timeNs, hs, hn]
  omega

/-- **Torn clock reads.**  The decisions depend on the nanoseconds register only, and the
64-bit time is exact.  So with the seconds read at `t` and the nanoseconds at `t'` they are
the ones of an untorn read at `t'`. -/
theorem torn_read_decides_same (gcl : List GclEntry) (f s₁ s₂ n : UInt32) :
    tasIsGateOpenFifox gcl (macTimeNowNs s₁ n) f = tasIsGateOpenFifox gcl (macTimeNowNs s₂ n) f ∧
    tasRemainingOpenTimeNsFifox gcl (macTimeNowNs s₁ n) f =
      tasRemainingOpenTimeNsFifox gcl (macTimeNowNs s₂ n) f ∧
    (macTimeNowNs s₁ n).toNat = s₁.toNat * 1000000000 + n.toNat ∧
    ∀ t t', (macTimeNowNs (secondsReg t') (nanosecondsReg t')).toNat = t' % (2 ^ 32 * 1000000000) ∧
      tasIsGateOpenFifox gcl (macTimeNowNs (secondsReg t) (nanosecondsReg t')) f =
        tasIsGateOpenFifox gcl (macTimeNowNs (secondsReg t') (nanosecondsReg t')) f ∧
      tasRemainingOpenTimeNsFifox gcl (macTimeNowNs (secondsReg t) (nanosecondsReg t')) f =
        tasRemainingOpenTimeNsFifox gcl (macTimeNowNs (secondsReg t') (nanosecondsReg t')) f := by
  have hsame : ∀ s₁ s₂ n, cycleTime (macTimeNowNs s₁ n) = cycleTime (macTimeNowNs s₂ n) := fun s₁ s₂ n =>
    (cycleTime_macTimeNowNs s₁ n).trans (cycleTime_macTimeNowNs s₂ n).symm
  exact ⟨gateOpen_congr gcl f (hsame s₁ s₂ n), remaining_congr gcl f (hsame s₁ s₂ n), toNat_macTimeNowNs s₁ n,
    fun t t' => ⟨toNat_macTimeNowNs_regs t', gateOpen_congr gcl f (hsame _ _ _),
      remaining_congr gcl f (hsame _ _ _)⟩⟩

/-! ## The time until the next open gate -/

theorem toNat_timeUntilNextOpen (t : UInt32) : (tasGetTimeUntilNextOpen t).toNat =
    if t.toNat % 10000000 < 1000000 then 1000000 - t.toNat % 10000000 else 11000000 - t.toNat % 10000000 := by
  have hmod : (t % tasCycleTimeNs).toNat = t.toNat % 10000000 := UInt32.toNat_mod t tasCycleTimeNs
  have hcycle : tasCycleTimeNs.toNat = 10000000 := rfl
  have hstart : tasGateOpenStartNs.toNat = 1000000 := rfl
  unfold tasGetTimeUntilNextOpen
  simp only [UInt32.lt_iff_toNat_lt, hmod, hstart]
  split
  · next h =>
    rw [UInt32.toNat_sub_of_le _ _ (by rw [UInt32.le_iff_toNat_le, hmod, hstart]; omega), hmod, hstart]
  · next h =>
    rw [UInt32.toNat_add, UInt32.toNat_sub_of_le _ _ (by rw [UInt32.le_iff_toNat_le, hmod, hcycle]; omega),
      hmod, hcycle, hstart]
    omega

/-- The wait ends 1 ms into a cycle. -/
theorem toNat_wait_end (t : UInt32) :
    (t.toUInt64 + (tasGetTimeUntilNextOpen t).toUInt64).toNat % 10000000 = 1000000 := by
  have ht := t.toNat_lt
  have hw := toNat_timeUntilNextOpen t
  have hsum : (t.toUInt64 + (tasGetTimeUntilNextOpen t).toUInt64).toNat =
      t.toNat + (tasGetTimeUntilNextOpen t).toNat := by
    have := (tasGetTimeUntilNextOpen t).toNat_lt
    rw [UInt64.toNat_add, UInt32.toNat_toUInt64, UInt32.toNat_toUInt64]
    omega
  rw [hsum, hw]
  split <;> omega

/-- **The wait is for a closed gate.**  From no start does it end in an open slot of FIFO 0:
it ends where that slot has ended. -/
theorem not_waitAgrees (t : UInt32) : ¬ WaitAgrees t := by
  rintro ⟨hopen, -⟩
  obtain ⟨-, j, hj, -, hbit⟩ := (tasIsGateOpenFifox_iff gclMirror gclMirror_ok _ 0).1 hopen
  rw [toNat_wait_end t] at hj
  have hone : slotAt (intervals gclMirror) 1000000 = some 1 := by decide
  obtain rfl := Option.some.inj (hone.symm.trans hj)
  exact hbit (by decide)

/-- From the start of a cycle the gate of FIFO 0 is open for 900 us; the wait is 1 ms. -/
theorem not_waitAgrees_zero : tasGetTimeUntilNextOpen 0 = 1000000 ∧ ¬ WaitAgrees 0 :=
  ⟨by decide, fun h => absurd h.1 (by decide)⟩

end CanTsn
