/-!
# A linear search whose counter wraps

`scan M p xs` walks through `xs` with a counter of `M` values, `for (i = 0; i < n; i++)`
with `n` wider than `i`.  A list of `M` elements or more keeps the loop condition true, so
then only a hit among the first `M` elements ends the search.

    scan M p xs M 0 = the first hit in xs.take M, or a miss if xs.length < M, or none
                                                                          (scan_eq)
    scan M p xs M 0 = some r ↔ ∃ fuel, scan M p xs fuel 0 = some r        (scan_eq_some_iff)
-/

namespace CounterScan

variable {α : Type}

/-- The search from counter `i`: `some (some x)` is a hit, `some none` a miss, and `none`
says that `fuel` rounds were not enough. -/
def scan (M : Nat) (p : α → Bool) (xs : List α) : (fuel : Nat) → (i : Nat) → Option (Option α)
  | 0, _ => none
  | fuel + 1, i =>
    match xs[i]? with
    | some x => if p x then some (some x) else scan M p xs fuel ((i + 1) % M)
    | none => some none

/-- What the search comes to: the hit, or what is known without one. -/
def result (M : Nat) (xs : List α) (hit : Option α) : Option (Option α) :=
  match hit with
  | some x => some (some x)
  | none => if xs.length < M then some none else none

variable {M : Nat} {p : α → Bool} {xs : List α}

/-- From `i` on the search finds the first hit that the counter reaches before it wraps. -/
theorem scan_eq_of_le (fuel i : Nat) (hi : i ≤ xs.length) (hfuel : i + fuel = M) :
    scan M p xs fuel i = result M xs (((xs.take M).drop i).find? p) := by
  induction fuel generalizing i with
  | zero =>
    -- the counter has been through all its values
    have hdrop : (xs.take M).drop i = [] := by
      apply List.drop_eq_nil_of_le
      rw [List.length_take]
      omega
    rw [hdrop]
    show none = if xs.length < M then some none else none
    rw [if_neg (by omega)]
  | succ fuel ih =>
    unfold scan
    rcases Nat.lt_or_ge i xs.length with hlt | hge
    · have htake : i < (xs.take M).length := by
        rw [List.length_take]
        omega
      rw [List.getElem?_eq_getElem hlt, List.drop_eq_getElem_cons htake, List.getElem_take]
      simp only
      by_cases hp : p xs[i] = true
      · rw [if_pos hp, List.find?_cons_of_pos hp]
        rfl
      · rw [if_neg hp, List.find?_cons_of_neg hp, ← ih (i + 1) hlt (by omega)]
        cases fuel with
        | zero => rfl
        | succ fuel => rw [Nat.mod_eq_of_lt (by omega)]
    · have hdrop : (xs.take M).drop i = [] := by
        apply List.drop_eq_nil_of_le
        rw [List.length_take]
        omega
      rw [List.getElem?_eq_none hge, hdrop]
      show some none = if xs.length < M then some none else none
      rw [if_pos (by omega)]

/-- **As many rounds as the counter has values** decide the search. -/
theorem scan_eq : scan M p xs M 0 = result M xs ((xs.take M).find? p) :=
  scan_eq_of_le M 0 (Nat.zero_le _) (Nat.zero_add M)

theorem scan_eq_none_iff : scan M p xs M 0 = none ↔ M ≤ xs.length ∧ ∀ x ∈ xs.take M, ¬ p x = true := by
  rw [scan_eq, ← List.find?_eq_none]
  unfold result
  cases (xs.take M).find? p with
  | some x => simp
  | none => simp

/-- A search that passes all the values of its counter goes on for ever. -/
theorem scan_never (hlen : M ≤ xs.length) (hmiss : ∀ x ∈ xs.take M, ¬ p x = true) (fuel i : Nat) (hi : i < M) :
    scan M p xs fuel i = none := by
  induction fuel generalizing i with
  | zero => rfl
  | succ fuel ih =>
    have hlt : i < xs.length := Nat.lt_of_lt_of_le hi hlen
    have hmem : xs[i] ∈ xs.take M := List.mem_take_iff_getElem.2 ⟨i, by omega, rfl⟩
    unfold scan
    rw [List.getElem?_eq_getElem hlt]
    simp only
    rw [if_neg (hmiss _ hmem)]
    exact ih _ (Nat.mod_lt _ (Nat.zero_lt_of_lt hi))

/-- More rounds do not change an answer. -/
theorem scan_mono {fuel i : Nat} {r : Option α} (h : scan M p xs fuel i = some r) (n : Nat) :
    scan M p xs (fuel + n) i = some r := by
  induction fuel generalizing i with
  | zero => cases h
  | succ fuel ih =>
    rw [Nat.succ_add]
    unfold scan at h ⊢
    cases hx : xs[i]? with
    | none => rwa [hx] at h
    | some x =>
      rw [hx] at h
      simp only at h ⊢
      split at h
      · next hp => rwa [if_pos hp]
      · next hp => rw [if_neg hp]; exact ih h

/-- **The answer** is the one that any number of rounds comes to. -/
theorem scan_eq_some_iff (hM : 0 < M) {r : Option α} :
    scan M p xs M 0 = some r ↔ ∃ fuel, scan M p xs fuel 0 = some r := by
  constructor
  · exact fun h => ⟨M, h⟩
  · rintro ⟨fuel, hfuel⟩
    cases hr : scan M p xs M 0 with
    | none =>
      obtain ⟨hlen, hmiss⟩ := scan_eq_none_iff.1 hr
      rw [scan_never hlen hmiss fuel 0 hM] at hfuel
      cases hfuel
    | some r' =>
      -- both answers are that of the longer run
      have hlong := scan_mono hr fuel
      rw [Nat.add_comm, scan_mono hfuel M] at hlong
      exact hlong.symm

end CounterScan
