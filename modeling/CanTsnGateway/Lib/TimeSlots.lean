import Mathlib.Algebra.GroupWithZero.Nat
import Mathlib.Algebra.BigOperators.Group.List.Basic
import Mathlib.Data.Set.Lattice
import Mathlib.Order.CompletePartialOrder
import Mathlib.Order.Interval.Set.Basic

/-!
# Consecutive time slots

A list of durations splits the time from 0 on into consecutive slots: slot `i` is
`[startOf ds i, startOf ds (i + 1))`.

    slotAt ds x = some i ↔ i < ds.length ∧ startOf ds i ≤ x ∧ x < startOf ds (i + 1)
                                                                   (slotAt_eq_some_iff)
    x < ds.sum → ∃ i, slotAt ds x = some i                          (exists_slotAt)

As sets of instants the slots are disjoint and cover `[0, ds.sum)`.
-/

namespace TimeSlots

/-- The sum of the durations before slot `i`. -/
def startOf (ds : List Nat) (i : Nat) : Nat := (ds.take i).sum

/-- The slot that instant `x` is in. -/
def slotAt : List Nat → Nat → Option Nat
  | [], _ => none
  | d :: ds, x => if x < d then some 0 else (slotAt ds (x - d)).map (· + 1)

@[simp] theorem startOf_zero (ds : List Nat) : startOf ds 0 = 0 := rfl

@[simp] theorem startOf_cons_succ (d : Nat) (ds : List Nat) (i : Nat) :
    startOf (d :: ds) (i + 1) = d + startOf ds i := by
  simp [startOf]

theorem startOf_le_sum (ds : List Nat) (i : Nat) : startOf ds i ≤ ds.sum := by
  induction ds generalizing i with
  | nil => simp [startOf]
  | cons d ds ih =>
    cases i with
    | zero => simp
    | succ i =>
      rw [startOf_cons_succ, List.sum_cons]
      have := ih i
      omega

theorem slotAt_eq_some_iff (ds : List Nat) (x i : Nat) :
    slotAt ds x = some i ↔ i < ds.length ∧ startOf ds i ≤ x ∧ x < startOf ds (i + 1) := by
  induction ds generalizing x i with
  | nil => simp [slotAt]
  | cons d ds ih =>
    unfold slotAt
    split
    · next hx =>
      cases i with
      | zero => simp [startOf, hx]
      | succ i =>
        simp only [startOf_cons_succ, Option.some.injEq]
        omega
    · next hx =>
      rw [Option.map_eq_some_iff]
      cases i with
      | zero =>
        simp only [startOf_cons_succ, startOf_zero]
        constructor
        · rintro ⟨j, -, hj⟩; omega
        · omega
      | succ i =>
        simp only [startOf_cons_succ, List.length_cons, Nat.add_right_cancel_iff, exists_eq_right]
        rw [ih]
        omega

/-- **The slots cover the time up to the sum of the durations.** -/
theorem exists_slotAt (ds : List Nat) (x : Nat) (h : x < ds.sum) : ∃ i, slotAt ds x = some i := by
  induction ds generalizing x with
  | nil => simp at h
  | cons d ds ih =>
    unfold slotAt
    split
    · exact ⟨0, rfl⟩
    · next hx =>
      rw [List.sum_cons] at h
      obtain ⟨i, hi⟩ := ih (x - d) (by omega)
      exact ⟨i + 1, by rw [hi]; rfl⟩

/-- Two instants between the same slot edges are in the same slot. -/
theorem slotAt_eq_of_between (ds : List Nat) (x y i : Nat) (hx : slotAt ds x = some i) (hxy : x ≤ y)
    (hy : y < startOf ds (i + 1)) : slotAt ds y = some i := by
  obtain ⟨hi, hs, -⟩ := (slotAt_eq_some_iff ds x i).1 hx
  exact (slotAt_eq_some_iff ds y i).2 ⟨hi, Nat.le_trans hs hxy, hy⟩

/-! ## Slots as sets of instants -/

theorem startOf_succ (ds : List Nat) (i : Nat) (h : i < ds.length) :
    startOf ds (i + 1) = startOf ds i + ds[i] := List.sum_take_succ ds i h

theorem startOf_mono (ds : List Nat) {i j : Nat} (h : i ≤ j) : startOf ds i ≤ startOf ds j := by
  induction h with
  | refl => exact Nat.le_refl _
  | @step j _ ih =>
    refine Nat.le_trans ih ?_
    rcases Nat.lt_or_ge j ds.length with hj | hj
    · rw [startOf_succ ds j hj]
      exact Nat.le_add_right _ _
    · unfold startOf
      rw [List.take_of_length_le hj, List.take_of_length_le (Nat.le_succ_of_le hj)]

/-- The instants of slot `i`. -/
def slot (ds : List Nat) (i : Nat) : Set Nat := Set.Ico (startOf ds i) (startOf ds (i + 1))

theorem mem_slot_iff (ds : List Nat) (i : Nat) (h : i < ds.length) (x : Nat) :
    x ∈ slot ds i ↔ slotAt ds x = some i := by
  rw [slotAt_eq_some_iff, and_iff_right h]
  exact Iff.rfl

theorem disjoint_slot (ds : List Nat) {i j : Nat} (hi : i < ds.length) (hj : j < ds.length) (hne : i ≠ j) :
    Disjoint (slot ds i) (slot ds j) := by
  rw [Set.disjoint_left]
  intro x hx hy
  rw [mem_slot_iff ds i hi] at hx
  rw [mem_slot_iff ds j hj] at hy
  exact hne (Option.some.inj (hx.symm.trans hy))

/-- **The slots partition** the time up to the sum of the durations. -/
theorem iUnion_slot (ds : List Nat) : ⋃ i < ds.length, slot ds i = Set.Iio ds.sum := by
  ext x
  simp only [Set.mem_iUnion, Set.mem_Iio]
  constructor
  · rintro ⟨i, -, -, hx⟩
    exact Nat.lt_of_lt_of_le hx (startOf_le_sum ds (i + 1))
  · intro hx
    obtain ⟨i, hi⟩ := exists_slotAt ds x hx
    have hlt := ((slotAt_eq_some_iff ds x i).1 hi).1
    exact ⟨i, hlt, (mem_slot_iff ds i hlt x).2 hi⟩

end TimeSlots
