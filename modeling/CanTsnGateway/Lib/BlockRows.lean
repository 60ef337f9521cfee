import Mathlib.Algebra.GroupWithZero.Nat
import Mathlib.Data.List.Basic

/-!
# Slots in rows

A memory is cut into rows of `cap` bytes, and each row into slots of its own size, as many
as fit.  The slots are numbered through the rows; `locate` gives the start and the size of
one.

    i < j → slot i ends before slot j starts                              (locate_before)
    every slot lies inside the rows                                       (locate_end_le)
-/

namespace BlockRows

variable {cap i j o size : Nat} {sizes : List Nat}

def locate (cap : Nat) : List Nat → Nat → Option (Nat × Nat)
  | [], _ => none
  | size :: sizes, i =>
    if i < cap / size then some (i * size, size)
    else (locate cap sizes (i - cap / size)).map fun r => (cap + r.1, r.2)

theorem locate_cons_of_lt (h : i < cap / size) : locate cap (size :: sizes) i = some (i * size, size) := if_pos h

theorem locate_cons_of_le (h : cap / size ≤ i) :
    locate cap (size :: sizes) i = (locate cap sizes (i - cap / size)).map fun r => (cap + r.1, r.2) :=
  if_neg (Nat.not_lt.2 h)

/-- How many slots there are. -/
def total (cap : Nat) (sizes : List Nat) : Nat := (sizes.map (cap / ·)).sum

theorem total_cons (cap size : Nat) (sizes : List Nat) : total cap (size :: sizes) = cap / size + total cap sizes := by
  simp [total]

theorem slot_end_le (h : i < cap / size) : i * size + size ≤ cap := by
  have hmul : (i + 1) * size ≤ cap / size * size := Nat.mul_le_mul_right size h
  have hcap := Nat.div_mul_le_self cap size
  rw [Nat.succ_mul] at hmul
  omega

/-- The first row has the slot, or a later one. -/
theorem locate_cons_cases {size' : Nat} (h : locate cap (size :: sizes) i = some (o, size')) :
    i < cap / size ∧ o = i * size ∧ size' = size ∨
      cap / size ≤ i ∧ ∃ o', locate cap sizes (i - cap / size) = some (o', size') ∧ o = cap + o' := by
  unfold locate at h
  split at h
  · next hi =>
    obtain ⟨rfl, rfl⟩ := Prod.mk.inj (Option.some.inj h)
    exact Or.inl ⟨hi, rfl, rfl⟩
  · next hi =>
    obtain ⟨⟨o', s⟩, hr, heq⟩ := Option.map_eq_some_iff.1 h
    obtain ⟨rfl, rfl⟩ := Prod.mk.inj heq
    exact Or.inr ⟨Nat.not_lt.1 hi, o', hr, rfl⟩

theorem locate_end_le (h : locate cap sizes i = some (o, size)) : o + size ≤ cap * sizes.length := by
  induction sizes generalizing i o with
  | nil => cases h
  | cons size' sizes ih =>
    have hlen : cap * (size' :: sizes).length = cap + cap * sizes.length := by
      rw [List.length_cons, Nat.mul_succ, Nat.add_comm]
    rw [hlen]
    rcases locate_cons_cases h with ⟨hi, rfl, rfl⟩ | ⟨_, o', ho', rfl⟩
    · have := slot_end_le hi
      omega
    · have := ih ho'
      omega

/-- **The slots lie one behind the other.** -/
theorem locate_before {o' size' : Nat} (hij : i < j) (hi : locate cap sizes i = some (o, size))
    (hj : locate cap sizes j = some (o', size')) : o + size ≤ o' := by
  induction sizes generalizing i j o o' with
  | nil => cases hi
  | cons s sizes ih =>
    rcases locate_cons_cases hi with ⟨hlt, rfl, rfl⟩ | ⟨hge, p, hp, rfl⟩
    · rcases locate_cons_cases hj with ⟨_, rfl, rfl⟩ | ⟨_, p', _, rfl⟩
      · rw [← Nat.succ_mul]
        exact Nat.mul_le_mul_right _ hij
      · have := slot_end_le hlt
        omega
    · rcases locate_cons_cases hj with ⟨hlt', _, _⟩ | ⟨hge', p', hp', rfl⟩
      · omega
      · have := ih (by omega) hp hp'
        omega

theorem size_mem (h : locate cap sizes i = some (o, size)) : size ∈ sizes := by
  induction sizes generalizing i o with
  | nil => cases h
  | cons s sizes ih =>
    rcases locate_cons_cases h with ⟨_, _, rfl⟩ | ⟨_, o', ho', _⟩
    · exact List.mem_cons_self
    · exact List.mem_cons_of_mem s (ih ho')

theorem exists_locate_iff : (∃ r, locate cap sizes i = some r) ↔ i < total cap sizes := by
  induction sizes generalizing i with
  | nil => simp [locate, total]
  | cons size sizes ih =>
    rw [total_cons]
    unfold locate
    split
    · next hi => exact ⟨fun _ => by omega, fun _ => ⟨_, rfl⟩⟩
    · next hi =>
      simp only [Option.map_eq_some_iff]
      constructor
      · rintro ⟨_, r, hr, _⟩
        have := ih.1 ⟨r, hr⟩
        omega
      · intro h
        obtain ⟨r, hr⟩ := ih.2 (show i - cap / size < total cap sizes by omega)
        exact ⟨_, r, hr, rfl⟩

/-- Past the first rows the search goes on in the others. -/
theorem locate_append_of_le {sizes' : List Nat} (h : total cap sizes ≤ i) :
    locate cap (sizes ++ sizes') i =
      (locate cap sizes' (i - total cap sizes)).map fun r => (cap * sizes.length + r.1, r.2) := by
  induction sizes generalizing i with
  | nil =>
    have hzero : total cap [] = 0 := rfl
    simp only [List.nil_append, List.length_nil, Nat.mul_zero, Nat.zero_add, hzero, Nat.sub_zero]
    cases locate cap sizes' i <;> rfl
  | cons size sizes ih =>
    rw [total_cons] at h
    have hsub : i - cap / size - total cap sizes = i - (cap / size + total cap sizes) := by omega
    rw [List.cons_append, total_cons, locate_cons_of_le (by omega), ih (by omega), Option.map_map, hsub]
    congr 1
    funext r
    show (cap + (cap * sizes.length + r.1), r.2) = _
    rw [List.length_cons, Nat.mul_succ, ← Nat.add_assoc, Nat.add_comm cap]

theorem locate_append_of_lt {sizes' : List Nat} (h : i < total cap sizes) :
    locate cap (sizes ++ sizes') i = locate cap sizes i := by
  induction sizes generalizing i with
  | nil => exact absurd h (Nat.not_lt_zero i)
  | cons size sizes ih =>
    rw [total_cons] at h
    rw [List.cons_append]
    rcases Nat.lt_or_ge i (cap / size) with hlt | hge
    · rw [locate_cons_of_lt hlt, locate_cons_of_lt hlt]
    · rw [locate_cons_of_le hge, locate_cons_of_le hge, ih (by omega)]

/-- Rows of one size: a division and its remainder. -/
theorem locate_replicate {n : Nat} (hpos : 0 < cap / size) (h : i < n * (cap / size)) :
    locate cap (List.replicate n size) i = some (cap * (i / (cap / size)) + i % (cap / size) * size, size) := by
  induction n generalizing i with
  | zero => omega
  | succ n ih =>
    rw [List.replicate_succ]
    rcases Nat.lt_or_ge i (cap / size) with hi | hge
    · rw [locate_cons_of_lt hi, Nat.div_eq_of_lt hi, Nat.mod_eq_of_lt hi, Nat.mul_zero, Nat.zero_add]
    · have hdiv : i / (cap / size) = (i - cap / size) / (cap / size) + 1 := Nat.div_eq_sub_div hpos hge
      have hmod : i % (cap / size) = (i - cap / size) % (cap / size) := Nat.mod_eq_sub_mod hge
      rw [Nat.succ_mul] at h
      rw [locate_cons_of_le hge, ih (by omega), hdiv, hmod, Option.map_some, Nat.mul_succ]
      congr 2
      omega

end BlockRows
