/-!
# Self-delimiting record codes

A `PrefixCode α β` writes a record `α` as a list of symbols and reads one record back
from the front of a longer list.  `decodeAll` reads records until nothing is left.

    c.decodeAll (as.flatMap c.enc) = some as                        (decodeAll_encodeAll)

so a list of records is determined by its symbols (`encodeAll_injective`).
-/

structure PrefixCode (α β : Type) where
  enc : α → List β
  /-- one record from the front, and what follows it -/
  dec : List β → Option (α × List β)
  dec_enc : ∀ a rest, dec (enc a ++ rest) = some (a, rest)
  enc_ne_nil : ∀ a, enc a ≠ []

namespace PrefixCode

variable {α β : Type} (c : PrefixCode α β)

def encodeAll (as : List α) : List β := as.flatMap c.enc

/-- At most `fuel` records; `none` when the symbols do not end with a record. -/
def decodeFuel : Nat → List β → Option (List α)
  | _, [] => some []
  | 0, _ :: _ => none
  | fuel + 1, b :: bs =>
    match c.dec (b :: bs) with
    | none => none
    | some (a, rest) => (decodeFuel fuel rest).map (a :: ·)

/-- Every record takes a symbol, so the length of the list is enough fuel. -/
def decodeAll (bs : List β) : Option (List α) := c.decodeFuel bs.length bs

@[simp] theorem encodeAll_nil : c.encodeAll [] = [] := rfl

theorem encodeAll_cons (a : α) (as : List α) :
    c.encodeAll (a :: as) = c.enc a ++ c.encodeAll as := List.flatMap_cons

theorem encodeAll_append (as bs : List α) :
    c.encodeAll (as ++ bs) = c.encodeAll as ++ c.encodeAll bs := List.flatMap_append

theorem encodeAll_singleton (a : α) : c.encodeAll [a] = c.enc a := by
  rw [encodeAll_cons, encodeAll_nil, List.append_nil]

theorem one_le_length_enc (a : α) : 1 ≤ (c.enc a).length :=
  List.length_pos_iff.2 (c.enc_ne_nil a)

theorem length_le_length_encodeAll (as : List α) : as.length ≤ (c.encodeAll as).length := by
  induction as with
  | nil => simp
  | cons a as ih =>
    rw [encodeAll_cons, List.length_cons, List.length_append]
    have := c.one_le_length_enc a
    omega

theorem decodeFuel_encodeAll (as : List α) (fuel : Nat) (h : as.length ≤ fuel) :
    c.decodeFuel fuel (c.encodeAll as) = some as := by
  induction as generalizing fuel with
  | nil => cases fuel <;> rfl
  | cons a as ih =>
    cases fuel with
    | zero => simp at h
    | succ fuel =>
      rw [List.length_cons] at h
      have hd := c.dec_enc a (c.encodeAll as)
      rw [encodeAll_cons]
      -- the encoded list is not empty, so the reader takes its last branch
      cases hb : c.enc a ++ c.encodeAll as with
      | nil => exact absurd (List.append_eq_nil_iff.1 hb).1 (c.enc_ne_nil a)
      | cons b bs =>
        rw [hb] at hd
        unfold decodeFuel
        simp only [hd, ih fuel (by omega), Option.map_some]

/-- **Round trip.**  Reading the records of a written list gives the list back. -/
theorem decodeAll_encodeAll (as : List α) : c.decodeAll (c.encodeAll as) = some as :=
  c.decodeFuel_encodeAll as _ (c.length_le_length_encodeAll as)

theorem encodeAll_injective {as bs : List α} (h : c.encodeAll as = c.encodeAll bs) : as = bs := by
  have := c.decodeAll_encodeAll as
  rw [h, c.decodeAll_encodeAll bs] at this
  exact (Option.some.inj this).symm

end PrefixCode
