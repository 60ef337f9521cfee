import Mathlib.Order.Interval.Finset.Nat

/-!
# Positions on a ring

A ring of `n` slots serves the positions `0, 1, 2, …`; position `k` is in slot `k % n`.
Less than a lap apart two positions have two slots, so that a write for one of them leaves
the other alone.

    lo ≤ j, k < lo + n → j % n = k % n → j = k                              (slot_inj)
    (the slot after k's, wrapping at the end) = (k + 1)'s slot              (wrap_succ)

`held xs d lo hi` is what the positions from `lo` up to `hi` hold: with at most a lap
between the two a queue, which is put to at `hi` or in front of `lo` and taken from at `lo`.
-/

namespace Ring

variable {α : Type} {n lo hi j k : Nat}

theorem slot_inj (hj : lo ≤ j ∧ j < lo + n) (hk : lo ≤ k ∧ k < lo + n) (h : j % n = k % n) : j = k :=
  Nat.mod_injOn_Ico lo n (Finset.mem_coe.2 (Finset.mem_Ico.2 hj)) (Finset.mem_coe.2 (Finset.mem_Ico.2 hk)) h

/-- Every slot is the one of some position of the lap from `lo` on. -/
theorem exists_position (lo : Nat) (hj : j < n) : ∃ k, (lo ≤ k ∧ k < lo + n) ∧ k % n = j := by
  have hmem : j ∈ (Finset.Ico lo (lo + n)).image (· % n) := by
    rw [Nat.image_Ico_mod]
    exact Finset.mem_range.2 hj
  obtain ⟨k, hk, hkj⟩ := Finset.mem_image.1 hmem
  exact ⟨k, Finset.mem_Ico.1 hk, hkj⟩

theorem wrap_succ (hn : 0 < n) : (if k % n + 1 ≥ n then 0 else k % n + 1) = (k + 1) % n := by
  have hlt := Nat.mod_lt k hn
  have hsplit : (k + 1) % n = (k % n + 1) % n := (Nat.mod_add_mod k n 1).symm
  rw [hsplit]
  split
  · next h =>
    have hlast : k % n + 1 = n := by omega
    rw [hlast, Nat.mod_self]
  · next h => exact (Nat.mod_eq_of_lt (by omega)).symm

/-! ## Slots of a list -/

/-- What position `k` holds. -/
def slot (xs : List α) (d : α) (k : Nat) : α := xs.getD (k % xs.length) d

theorem slot_set_self {xs : List α} (d a : α) (k : Nat) (hpos : 0 < xs.length) :
    slot (xs.set (k % xs.length) a) d k = a := by
  unfold slot
  rw [List.length_set, List.getD_eq_getElem?_getD, List.getElem?_set_self (Nat.mod_lt k hpos), Option.getD_some]

theorem slot_set_of_ne {xs : List α} (d a : α) (hj : lo ≤ j ∧ j < lo + xs.length)
    (hk : lo ≤ k ∧ k < lo + xs.length) (hjk : j ≠ k) : slot (xs.set (k % xs.length) a) d j = slot xs d j := by
  have hslot : k % xs.length ≠ j % xs.length := fun h => hjk (slot_inj hk hj h).symm
  unfold slot
  rw [List.length_set, List.getD_eq_getElem?_getD, List.getElem?_set_ne hslot, ← List.getD_eq_getElem?_getD]

/-- What the positions from `lo` up to `hi` hold. -/
def held (xs : List α) (d : α) (lo hi : Nat) : List α := (List.range' lo (hi - lo)).map (slot xs d)

theorem held_self (xs : List α) (d : α) (lo : Nat) : held xs d lo lo = [] := by
  unfold held
  rw [Nat.sub_self]
  rfl

theorem held_cons (xs : List α) (d : α) (h : lo < hi) :
    held xs d lo hi = slot xs d lo :: held xs d (lo + 1) hi := by
  unfold held
  obtain ⟨m, hm⟩ : ∃ m, hi - lo = m + 1 := ⟨hi - lo - 1, by omega⟩
  have hm' : hi - (lo + 1) = m := by omega
  rw [hm, hm', List.range'_succ, List.map_cons]

/-- A lap further round the same is held. -/
theorem held_lap (xs : List α) (d : α) (lo hi : Nat) :
    held xs d (lo + xs.length) (hi + xs.length) = held xs d lo hi := by
  have hlen : hi + xs.length - (lo + xs.length) = hi - lo := by omega
  unfold held
  rw [hlen, Nat.add_comm lo, ← List.map_add_range', List.map_map]
  apply List.map_congr_left
  intro k _
  show slot xs d (xs.length + k) = slot xs d k
  unfold slot
  rw [Nat.add_mod_left]

/-- A write at `lo` puts the item in front of what is held behind. -/
theorem held_set_front {xs : List α} (d a : α) (hlt : lo < hi) (hroom : hi ≤ lo + xs.length) :
    held (xs.set (lo % xs.length) a) d lo hi = a :: held xs d (lo + 1) hi := by
  rw [held_cons _ d hlt, slot_set_self d a lo (by omega)]
  unfold held
  congr 1
  apply List.map_congr_left
  intro j hj
  rw [List.mem_range'_1] at hj
  exact slot_set_of_ne d a (k := lo) (j := j) ⟨by omega, by omega⟩ ⟨Nat.le_refl _, by omega⟩ (by omega)

/-- A write at `hi` puts the item behind what is held. -/
theorem held_set {xs : List α} (d a : α) (hle : lo ≤ hi) (hroom : hi < lo + xs.length) :
    held (xs.set (hi % xs.length) a) d lo (hi + 1) = held xs d lo hi ++ [a] := by
  have hpos : 0 < xs.length := by omega
  have hlen : hi + 1 - lo = (hi - lo) + 1 := by omega
  unfold held
  rw [hlen, List.range'_1_concat, List.map_append, List.map_singleton, Nat.add_sub_cancel' hle,
    slot_set_self d a hi hpos]
  congr 1
  apply List.map_congr_left
  intro j hj
  rw [List.mem_range'_1] at hj
  exact slot_set_of_ne d a (k := hi) (j := j) ⟨hj.1, by omega⟩ ⟨hle, hroom⟩ (by omega)

end Ring
