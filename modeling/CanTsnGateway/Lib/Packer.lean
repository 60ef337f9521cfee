import Mathlib.Algebra.GroupWithZero.Nat

/-!
# Packing a stream into containers, in order, with a one-slot carry

Items arrive one at a time and go into the open container while it has room: a
container of items `as` takes `hdr + load as` of `cap`.  An item that does not fit is
carried; the open container is then closed and the carried item is the first of the
next one.  A container is also closed when it is full and when a flush is asked for.

    contents (step p input flush) = contents p ++ input            (contents_step_of_no_carry)
    contents (step p input flush) = contents p                        (contents_step_of_carry)
    Wf p → Wf (step p input flush)                                              (wf_step)

`contents` is everything taken in, in order: the closed containers, the open one, the
carried item.
-/

structure Packer (α : Type) where
  closed : List (List α)
  pending : List α
  carry : Option α

namespace Packer

variable {α : Type} (size : α → Nat) (hdr cap : Nat)

def load (as : List α) : Nat := (as.map size).sum

def empty : Packer α := ⟨[], [], none⟩

def contents (p : Packer α) : List α := p.closed.flatten ++ p.pending ++ p.carry.toList

/-- Append the item if it fits, carry it otherwise. -/
def put (p : Packer α) (a : α) : Packer α :=
  if hdr + load size p.pending + size a ≤ cap then { p with pending := p.pending ++ [a] }
  else { p with carry := some a }

/-- The carried item goes first; only without one is the input taken. -/
def take (p : Packer α) (input : Option α) : Packer α :=
  match p.carry with
  | some a => put size hdr cap { p with carry := none } a
  | none =>
    match input with
    | some a => put size hdr cap p a
    | none => p

/-- The open container must go: it holds something, and an item is carried or it is
full or a flush is asked for. -/
def closes (p : Packer α) (flush : Bool) : Bool :=
  !p.pending.isEmpty && (p.carry.isSome || decide (cap ≤ hdr + load size p.pending) || flush)

def close (p : Packer α) (flush : Bool) : Packer α :=
  if closes size hdr cap p flush then { p with closed := p.closed ++ [p.pending], pending := [] }
  else p

def step (p : Packer α) (input : Option α) (flush : Bool) : Packer α :=
  close size hdr cap (take size hdr cap p input) flush

@[simp] theorem load_nil : load size ([] : List α) = 0 := rfl

theorem load_append (as bs : List α) : load size (as ++ bs) = load size as + load size bs := by
  unfold load
  rw [List.map_append, List.sum_append]

theorem load_singleton (a : α) : load size [a] = size a := by simp [load]

@[simp] theorem carry_close (p : Packer α) (flush : Bool) :
    (close size hdr cap p flush).carry = p.carry := by
  unfold close
  split <;> rfl

/-! ## Nothing is lost, duplicated or reordered -/

theorem contents_put (p : Packer α) (a : α) (hc : p.carry = none) :
    contents (put size hdr cap p a) = contents p ++ [a] := by
  unfold put contents
  split <;> simp [hc]

theorem contents_close (p : Packer α) (flush : Bool) :
    contents (close size hdr cap p flush) = contents p := by
  unfold close contents
  split <;> simp

/-- Without a carried item a step takes in its input. -/
theorem contents_step_of_no_carry (p : Packer α) (input : Option α) (flush : Bool)
    (hc : p.carry = none) :
    contents (step size hdr cap p input flush) = contents p ++ input.toList := by
  unfold step take
  rw [contents_close, hc]
  cases input with
  | none => simp
  | some a => exact contents_put size hdr cap p a hc

/-- With a carried item a step takes in nothing new. -/
theorem contents_step_of_carry (p : Packer α) (a : α) (input : Option α) (flush : Bool)
    (hc : p.carry = some a) : contents (step size hdr cap p input flush) = contents p := by
  unfold step take
  rw [contents_close, hc]
  show contents (put size hdr cap { p with carry := none } a) = contents p
  rw [contents_put size hdr cap _ a rfl]
  simp [contents, hc]

/-! ## The shape of a reachable packer -/

/-- An item is carried only while no container is open; the open container has room
left; a closed one is not empty and within the capacity. -/
structure Wf (p : Packer α) : Prop where
  carry_open : p.carry.isSome = true → p.pending = []
  room : hdr + load size p.pending < cap
  closed_ne : ∀ c ∈ p.closed, c ≠ []
  closed_le : ∀ c ∈ p.closed, hdr + load size c ≤ cap

theorem wf_empty (h : hdr < cap) : Wf size hdr cap (empty : Packer α) where
  carry_open := fun _ => rfl
  room := by simpa [empty] using h
  closed_ne := by simp [empty]
  closed_le := by simp [empty]

/-- What `take` leaves: the closed containers are the same, the open one is within the
capacity, and with an item carried it is not empty. -/
theorem take_spec (h1 : ∀ a, hdr + size a ≤ cap) (p : Packer α) (hp : Wf size hdr cap p)
    (input : Option α) :
    (take size hdr cap p input).closed = p.closed ∧
    hdr + load size (take size hdr cap p input).pending ≤ cap ∧
    ((take size hdr cap p input).carry.isSome = true → (take size hdr cap p input).pending ≠ []) := by
  have put_ok : ∀ (r : Packer α) (a : α), r.carry = none → hdr + load size r.pending < cap →
      (put size hdr cap r a).closed = r.closed ∧
      hdr + load size (put size hdr cap r a).pending ≤ cap ∧
      ((put size hdr cap r a).carry.isSome = true → (put size hdr cap r a).pending ≠ []) := by
    intro r a hr hroom
    unfold put
    split
    · next hfit =>
      refine ⟨rfl, ?_, fun h => by simp [hr] at h⟩
      simp only [load_append, load_singleton]
      omega
    · next hfit =>
      refine ⟨rfl, Nat.le_of_lt hroom, fun _ hnil => ?_⟩
      -- an empty container has room for any one item
      simp only at hnil
      rw [hnil, load_nil] at hfit
      have := h1 a
      omega
  unfold take
  cases hc : p.carry with
  | some a => exact put_ok { p with carry := none } a rfl hp.room
  | none =>
    cases input with
    | some a => exact put_ok p a hc hp.room
    | none => exact ⟨rfl, Nat.le_of_lt hp.room, fun h => by simp [hc] at h⟩

theorem wf_step (h0 : hdr < cap) (h1 : ∀ a, hdr + size a ≤ cap) (p : Packer α)
    (hp : Wf size hdr cap p) (input : Option α) (flush : Bool) :
    Wf size hdr cap (step size hdr cap p input flush) := by
  obtain ⟨hcl, hle, hne⟩ := take_spec size hdr cap h1 p hp input
  unfold step close
  split
  · next hclose =>
    unfold closes at hclose
    simp only [Bool.and_eq_true, Bool.not_eq_true', List.isEmpty_eq_false_iff] at hclose
    refine ⟨fun _ => rfl, by simpa using h0, ?_, ?_⟩
    · intro c hc
      rw [hcl] at hc
      rcases List.mem_append.1 hc with hc | hc
      · exact hp.closed_ne c hc
      · rw [List.mem_singleton.1 hc]; exact hclose.1
    · intro c hc
      rw [hcl] at hc
      rcases List.mem_append.1 hc with hc | hc
      · exact hp.closed_le c hc
      · rw [List.mem_singleton.1 hc]; exact hle
  · next hopen =>
    unfold closes at hopen
    simp only [Bool.and_eq_true, Bool.not_eq_true', List.isEmpty_eq_false_iff, not_and, Bool.or_eq_true,
      decide_eq_true_eq, not_or] at hopen
    refine ⟨fun h => ?_, ?_, by rw [hcl]; exact hp.closed_ne, by rw [hcl]; exact hp.closed_le⟩
    · exact absurd h (hopen (hne h)).1.1
    · by_cases hnil : (take size hdr cap p input).pending = []
      · rw [hnil, load_nil]; omega
      · have := (hopen hnil).1.2; omega

end Packer
