/-!
# Pages

Memory in pages of `P` bytes: address `x` is in page `x / P`.  Three ways to say that the
bytes `[a, a + n)` are not all in one page come to the same.

    Crosses P a n ↔ toEnd P a < n                                   (crosses_iff)
    Crosses P a n ↔ lastByte P a < a + n - 1, for n > 0             (lastByte_lt_iff)
-/

namespace Pages

/-- The bytes from `a` to the end of its page. -/
def toEnd (P a : Nat) : Nat := P - a % P

/-- The last address in the page of `a`. -/
def lastByte (P a : Nat) : Nat := a - a % P + P - 1

/-- `[a, a + n)` has addresses in two different pages. -/
def Crosses (P a n : Nat) : Prop :=
  ∃ x y, a ≤ x ∧ x < a + n ∧ a ≤ y ∧ y < a + n ∧ x / P ≠ y / P

variable {P : Nat} (hP : 0 < P) (a n : Nat)

include hP

theorem toEnd_pos : 0 < toEnd P a := Nat.sub_pos_of_lt (Nat.mod_lt a hP)

omit hP in
theorem toEnd_le : toEnd P a ≤ P := Nat.sub_le P (a % P)

/-- The page ends at a multiple of its size. -/
theorem dvd_add_toEnd : P ∣ a + toEnd P a := by
  have hmod := Nat.mod_lt a hP
  have hdiv := Nat.div_add_mod a P
  refine ⟨a / P + 1, ?_⟩
  rw [Nat.mul_succ]
  unfold toEnd
  omega

theorem lastByte_eq : lastByte P a = a + toEnd P a - 1 := by
  have hmod := Nat.mod_lt a hP
  have hle := Nat.mod_le a P
  unfold lastByte toEnd
  omega

/-- The addresses from `a` on are in its page up to its end. -/
theorem div_eq_iff {x : Nat} (hx : a ≤ x) : x / P = a / P ↔ x < a + toEnd P a := by
  obtain ⟨k, rfl⟩ := Nat.exists_eq_add_of_le hx
  have hmod := Nat.mod_lt a hP
  have hsplit : (a + k) / P = a / P + (a % P + k) / P := by
    rw [← Nat.mul_add_div hP, ← Nat.add_assoc, Nat.div_add_mod]
  rw [hsplit, Nat.add_eq_left, Nat.div_eq_zero_iff_lt hP]
  unfold toEnd
  omega

/-- **Crossing** is having more bytes than the page has left. -/
theorem crosses_iff : Crosses P a n ↔ toEnd P a < n := by
  constructor
  · rintro ⟨x, y, hx, hxn, hy, hyn, hne⟩
    rcases Nat.lt_or_ge (toEnd P a) n with hlt | hge
    · exact hlt
    · -- else both are in the page of `a`
      refine absurd ?_ hne
      rw [(div_eq_iff hP a hx).2 (by omega), (div_eq_iff hP a hy).2 (by omega)]
  · intro hlt
    have hpos := toEnd_pos hP a
    refine ⟨a + toEnd P a, a, Nat.le_add_right _ _, by omega, Nat.le_refl a, by omega, fun heq => ?_⟩
    exact Nat.lt_irrefl _ ((div_eq_iff hP a (Nat.le_add_right _ _)).1 heq)

theorem lastByte_lt_iff (hn : 0 < n) : lastByte P a < a + n - 1 ↔ Crosses P a n := by
  have hpos := toEnd_pos hP a
  rw [crosses_iff hP, lastByte_eq hP]
  omega

end Pages
