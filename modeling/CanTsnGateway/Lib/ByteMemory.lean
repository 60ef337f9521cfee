import Mathlib.Algebra.GroupWithZero.Nat
import Mathlib.Logic.Function.Basic

/-!
# Byte memory with 32-bit addresses

`write m a bs` puts `bs` at `a` and behind, `read m a n` takes `n` bytes from `a` on;
addresses wrap.  `storeDown` is the copy loop that runs from the last byte to the first.

    read (write m a bs) a bs.length = bs                                  (read_write)
    the two regions apart → read (write m a bs) b n = read m b n          (read_write_of_apart)

An array of slots of equal size is a list of byte strings; a write of one slot sets one
element of that list (`slots_write`).
-/

namespace ByteMemory

abbrev Memory := UInt32 → UInt8

def write (m : Memory) (a : UInt32) (bs : List UInt8) : Memory := fun x => bs.getD (x - a).toNat (m x)

def read (m : Memory) (a : UInt32) (n : Nat) : List UInt8 :=
  (List.range n).map fun i => m (a + UInt32.ofNat i)

/-- `n` bytes at `a` and `k` bytes at `b` have no byte in common and do not wrap. -/
def Apart (a : UInt32) (n : Nat) (b : UInt32) (k : Nat) : Prop :=
  a.toNat + n ≤ b.toNat ∧ b.toNat + k ≤ 2 ^ 32 ∨ b.toNat + k ≤ a.toNat ∧ a.toNat + n ≤ 2 ^ 32

theorem Apart.mono {a b : UInt32} {n n' k k' : Nat} (h : Apart a n b k) (hn : n' ≤ n) (hk : k' ≤ k) :
    Apart a n' b k' := by
  unfold Apart at *
  omega

theorem length_read (m : Memory) (a : UInt32) (n : Nat) : (read m a n).length = n := by simp [read]

theorem toNat_add_ofNat {a : UInt32} {i : Nat} (h : a.toNat + i < 2 ^ 32) :
    (a + UInt32.ofNat i).toNat = a.toNat + i := by
  rw [UInt32.toNat_add, UInt32.toNat_ofNat']
  omega

theorem read_write (m : Memory) (a : UInt32) (bs : List UInt8) (h : bs.length ≤ 2 ^ 32) :
    read (write m a bs) a bs.length = bs := by
  apply List.ext_getElem
  · exact length_read _ _ _
  · intro i _ hi
    have hoff : (a + UInt32.ofNat i - a).toNat = i := by
      rw [UInt32.toNat_sub, UInt32.toNat_add, UInt32.toNat_ofNat']
      have := a.toNat_lt
      omega
    simp only [read, write, List.getElem_map, List.getElem_range, hoff]
    rw [List.getD_eq_getElem?_getD, List.getElem?_eq_getElem hi, Option.getD_some]

/-- The second of two writes to the same place counts. -/
theorem write_write {bs bs' : List UInt8} (m : Memory) (a : UInt32) (h : bs.length = bs'.length) :
    write (write m a bs) a bs' = write m a bs' := by
  funext x
  unfold write
  rw [List.getD_eq_getElem?_getD, List.getD_eq_getElem?_getD, List.getD_eq_getElem?_getD]
  rcases Nat.lt_or_ge (x - a).toNat bs'.length with hlt | hge
  · rw [List.getElem?_eq_getElem hlt]
    rfl
  · rw [List.getElem?_eq_none hge, List.getElem?_eq_none (h ▸ hge)]
    rfl

theorem read_congr {m m' : Memory} {a : UInt32} {n : Nat}
    (h : ∀ i < n, m (a + UInt32.ofNat i) = m' (a + UInt32.ofNat i)) : read m a n = read m' a n :=
  List.map_congr_left fun i hi => h i (List.mem_range.1 hi)

theorem read_write_of_apart {m : Memory} {a b : UInt32} {bs : List UInt8} {n : Nat}
    (h : Apart a bs.length b n) : read (write m a bs) b n = read m b n := by
  refine read_congr fun i hi => ?_
  have ha := a.toNat_lt
  have hx : (b + UInt32.ofNat i).toNat = b.toNat + i := toNat_add_ofNat (by unfold Apart at h; omega)
  have hoff : bs.length ≤ (b + UInt32.ofNat i - a).toNat := by
    rw [UInt32.toNat_sub, hx]
    unfold Apart at h
    omega
  unfold write
  rw [List.getD_eq_getElem?_getD, List.getElem?_eq_none hoff, Option.getD_none]

theorem read_add (m : Memory) (a : UInt32) (n k : Nat) :
    read m a (n + k) = read m a n ++ read m (a + UInt32.ofNat n) k := by
  unfold read
  rw [List.range_add, List.map_append, List.map_map]
  congr 1
  apply List.map_congr_left
  intro i _
  show m (a + UInt32.ofNat (n + i)) = m (a + UInt32.ofNat n + UInt32.ofNat i)
  rw [UInt32.ofNat_add, UInt32.add_assoc]

/-- A write changes no byte outside its region. -/
theorem write_of_outside {m : Memory} {a x : UInt32} {bs : List UInt8} (hwrap : a.toNat + bs.length ≤ 2 ^ 32)
    (h : x.toNat < a.toNat ∨ a.toNat + bs.length ≤ x.toNat) : write m a bs x = m x := by
  have hx := x.toNat_lt
  have hoff : bs.length ≤ (x - a).toNat := by
    rw [UInt32.toNat_sub]
    omega
  unfold write
  rw [List.getD_eq_getElem?_getD, List.getElem?_eq_none hoff, Option.getD_none]

/-! ## Regions -/

/-- The two memories differ in the `n` bytes at `a` only. -/
def SameOutside (m m' : Memory) (a : UInt32) (n : Nat) : Prop :=
  ∀ x : UInt32, x.toNat < a.toNat ∨ a.toNat + n ≤ x.toNat → m' x = m x

namespace SameOutside

variable {m m₁ m₂ : Memory} {a b : UInt32} {n k : Nat}

theorem refl (m : Memory) (a : UInt32) (n : Nat) : SameOutside m m a n := fun _ _ => rfl

theorem trans (h : SameOutside m m₁ a n) (h' : SameOutside m₁ m₂ a n) : SameOutside m m₂ a n :=
  fun x hx => (h' x hx).trans (h x hx)

/-- A part of a region. -/
theorem mono (h : SameOutside m m₁ b k) (hb : a.toNat ≤ b.toNat) (hk : b.toNat + k ≤ a.toNat + n) :
    SameOutside m m₁ a n := fun x hx => h x (by omega)

theorem of_write {bs : List UInt8} (hlen : bs.length ≤ n) (hwrap : a.toNat + n ≤ 2 ^ 32) :
    SameOutside m (write m a bs) a n :=
  fun _ hx => write_of_outside (by omega) (by omega)

theorem of_update {x : UInt32} {v : UInt8} (hlo : a.toNat ≤ x.toNat) (hhi : x.toNat < a.toNat + n) :
    SameOutside m (Function.update m x v) a n := fun y hy =>
  Function.update_of_ne (fun h => by rw [h] at hy; omega) _ _

theorem foldl {β : Type} {f : Memory → β → Memory} {l : List β} (h : ∀ m, ∀ x ∈ l, SameOutside m (f m x) a n) :
    SameOutside m (l.foldl f m) a n := by
  induction l generalizing m with
  | nil => exact refl m a n
  | cons x l ih =>
    exact (h m x List.mem_cons_self).trans (ih fun m y hy => h m y (List.mem_cons_of_mem x hy))

/-- What lies apart is read as before. -/
theorem apply (h : SameOutside m m₁ a n) (hab : Apart a n b k) {i : Nat} (hi : i < k) :
    m₁ (b + UInt32.ofNat i) = m (b + UInt32.ofNat i) := by
  have hx : (b + UInt32.ofNat i).toNat = b.toNat + i := toNat_add_ofNat (by
    have := a.toNat_lt
    unfold Apart at hab
    omega)
  refine h _ ?_
  unfold Apart at hab
  omega

theorem read_eq (h : SameOutside m m₁ a n) (hab : Apart a n b k) : read m₁ b k = read m b k :=
  read_congr fun _ hi => h.apply hab hi

end SameOutside

/-! ## Arrays of slots -/

section Slots

variable {a : UInt32} {size k n : Nat} {m : Memory} {item : List UInt8}

def slotAddr (a : UInt32) (size k : Nat) : UInt32 := a + UInt32.ofNat (k * size)

/-- What the `n` slots hold. -/
def slots (m : Memory) (a : UInt32) (size n : Nat) : List (List UInt8) :=
  (List.range n).map fun k => read m (slotAddr a size k) size

theorem length_slots (m : Memory) (a : UInt32) (size n : Nat) : (slots m a size n).length = n := by
  simp [slots]

theorem getElem_slots (h : k < (slots m a size n).length) :
    (slots m a size n)[k] = read m (slotAddr a size k) size := by simp [slots]

theorem end_le (h : k < n) (size : Nat) : k * size + size ≤ n * size := by
  rw [← Nat.succ_mul]
  exact Nat.mul_le_mul_right size h

theorem toNat_slotAddr (h : a.toNat + k * size < 2 ^ 32) : (slotAddr a size k).toNat = a.toNat + k * size :=
  toNat_add_ofNat h

/-- A write of one slot leaves the others alone. -/
theorem slots_write (hk : k < n) (hitem : item.length = size) (hfit : a.toNat + n * size < 2 ^ 32) :
    slots (write m (slotAddr a size k) item) a size n = (slots m a size n).set k item := by
  have haddr : ∀ j < n, (slotAddr a size j).toNat = a.toNat + j * size := fun j hj =>
    toNat_slotAddr (by have := end_le hj size; omega)
  apply List.ext_getElem
  · rw [List.length_set, length_slots, length_slots]
  · intro j hj _
    have hjn : j < n := by rwa [length_slots] at hj
    rw [getElem_slots, List.getElem_set]
    have hjend := end_le hjn size
    have hkend := end_le hk size
    split
    · next hkj =>
      subst hkj
      rw [← hitem]
      exact read_write m _ item (by omega)
    · next hkj =>
      rw [getElem_slots]
      refine read_write_of_apart ?_
      unfold Apart
      rw [haddr j hjn, haddr k hk, hitem]
      rcases Nat.lt_or_gt_of_ne hkj with hlt | hgt
      · have := end_le hlt size
        omega
      · have := end_le hgt size
        omega

end Slots

/-! ## The loop from the last byte -/

/-- Bytes `n - 1, …, 0` of `bs`, one after the other. -/
def storeDown (m : Memory) (a : UInt32) (bs : List UInt8) : Nat → Memory
  | 0 => m
  | n + 1 => storeDown (Function.update m (a + UInt32.ofNat n) (bs.getD n 0)) a bs n

/-- What the loop has left to do does not touch the bytes behind. -/
theorem storeDown_apply (m : Memory) (a x : UInt32) (bs : List UInt8) (n : Nat) (hn : n ≤ bs.length)
    (hlen : bs.length ≤ 2 ^ 32) :
    storeDown m a bs n x = if (x - a).toNat < n then bs.getD (x - a).toNat 0 else m x := by
  induction n generalizing m with
  | zero => rfl
  | succ n ih =>
    unfold storeDown
    rw [ih _ (by omega)]
    by_cases hx : (x - a).toNat = n
    · have hxa : x = a + UInt32.ofNat n := by
        apply UInt32.toNat_inj.1
        rw [UInt32.toNat_add, UInt32.toNat_ofNat', ← hx, UInt32.toNat_sub]
        have := a.toNat_lt
        have := x.toNat_lt
        omega
      rw [if_neg (by omega), if_pos (by omega), hx, hxa, Function.update_self]
    · have hxa : x ≠ a + UInt32.ofNat n := by
        rintro rfl
        apply hx
        rw [UInt32.toNat_sub, UInt32.toNat_add, UInt32.toNat_ofNat']
        have := a.toNat_lt
        omega
      rw [Function.update_of_ne hxa]
      by_cases hlt : (x - a).toNat < n
      · rw [if_pos hlt, if_pos (by omega)]
      · rw [if_neg hlt, if_neg (by omega)]

/-- **The loop copies**, like one that runs forwards. -/
theorem storeDown_eq_write (m : Memory) (a : UInt32) (bs : List UInt8) (hlen : bs.length ≤ 2 ^ 32) :
    storeDown m a bs bs.length = write m a bs := by
  funext x
  rw [storeDown_apply m a x bs bs.length (Nat.le_refl _) hlen]
  unfold write
  split
  · next h => rw [List.getD_eq_getElem?_getD, List.getD_eq_getElem?_getD, List.getElem?_eq_getElem h]; rfl
  · next h => rw [List.getD_eq_getElem?_getD, List.getElem?_eq_none (Nat.not_lt.1 h)]; rfl

end ByteMemory
