/-!
# Fixed-size memory blocks

`Block α n` is `n` cells.  `store` writes one cell, `memcpy` writes a list of cells
one after the other, `upto len` reads the first `len` cells.  A write outside the
block changes nothing, so whoever models a program with it also shows that its
writes are inside.

    k + xs.length ≤ n → (b.memcpy k xs).upto (k + xs.length) = b.upto k ++ xs   (upto_memcpy)
-/

namespace ByteBlock

structure Block (α : Type) (n : Nat) where
  cells : List α
  length_cells : cells.length = n

namespace Block

variable {α : Type} {n : Nat}

def fill (n : Nat) (x : α) : Block α n := ⟨List.replicate n x, List.length_replicate⟩

def store (b : Block α n) (k : Nat) (x : α) : Block α n :=
  ⟨b.cells.set k x, by rw [List.length_set, b.length_cells]⟩

def memcpy : Block α n → Nat → List α → Block α n
  | b, _, [] => b
  | b, k, x :: xs => (b.store k x).memcpy (k + 1) xs

def upto (b : Block α n) (len : Nat) : List α := b.cells.take len

@[simp] theorem memcpy_nil (b : Block α n) (k : Nat) : b.memcpy k [] = b := rfl

theorem memcpy_cons (b : Block α n) (k : Nat) (x : α) (xs : List α) :
    b.memcpy k (x :: xs) = (b.store k x).memcpy (k + 1) xs := rfl

theorem length_upto (b : Block α n) (len : Nat) (h : len ≤ n) : (b.upto len).length = len := by
  unfold upto
  rw [List.length_take, b.length_cells]
  omega

/-- A store past the prefix does not touch it. -/
theorem upto_store_of_le (b : Block α n) (k len : Nat) (x : α) (h : len ≤ k) :
    (b.store k x).upto len = b.upto len :=
  List.take_set_of_le h

/-- A store inside the prefix changes that one cell of it. -/
theorem upto_store (b : Block α n) (k len : Nat) (x : α) :
    (b.store k x).upto len = (b.upto len).set k x := List.take_set

theorem upto_store_succ (b : Block α n) (k : Nat) (x : α) (h : k < n) :
    (b.store k x).upto (k + 1) = b.upto k ++ [x] := by
  have hk : k < (b.store k x).cells.length := by rw [(b.store k x).length_cells]; exact h
  have hx : (b.store k x).cells[k] = x := List.getElem_set_self _
  unfold upto
  rw [List.take_succ_eq_append_getElem hk, hx]
  congr 1
  exact upto_store_of_le b k k x (Nat.le_refl k)

/-- **A copy inside the block extends the prefix it starts at.** -/
theorem upto_memcpy (b : Block α n) (k : Nat) (xs : List α) (h : k + xs.length ≤ n) :
    (b.memcpy k xs).upto (k + xs.length) = b.upto k ++ xs := by
  induction xs generalizing b k with
  | nil => simp
  | cons x xs ih =>
    rw [List.length_cons] at h
    have step := ih (b.store k x) (k + 1) (by omega)
    rw [upto_store_succ b k x (by omega)] at step
    rw [memcpy_cons, List.length_cons, show k + (xs.length + 1) = k + 1 + xs.length by omega, step,
      List.append_assoc, List.singleton_append]

end Block

end ByteBlock
