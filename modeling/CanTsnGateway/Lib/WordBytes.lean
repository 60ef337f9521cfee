import Mathlib.Data.Nat.Bitwise
import CanTsnGateway.Lib.ByteMemory

/-!
# Little-endian words

A 32-bit word is four bytes, the lowest first; `ofBytes` and `bytes` are inverse to each
other.  `load` and `store` are the accesses of a little-endian machine.

    load (store m a x) a = x                                                  (load_store)
-/

namespace WordBytes

open ByteMemory

def bytes (x : UInt32) : List UInt8 := (List.range 4).map fun k => UInt8.ofNat (x.toNat / 2 ^ (8 * k))

def ofBytes (bs : List UInt8) : UInt32 :=
  UInt32.ofNat ((bs.getD 0 0).toNat + 2 ^ 8 * (bs.getD 1 0).toNat + 2 ^ 16 * (bs.getD 2 0).toNat +
    2 ^ 24 * (bs.getD 3 0).toNat)

theorem length_bytes (x : UInt32) : (bytes x).length = 4 := rfl

theorem ofBytes_bytes (x : UInt32) : ofBytes (bytes x) = x := by
  have hx := x.toNat_lt
  apply UInt32.toNat_inj.1
  show (UInt32.ofNat ((UInt8.ofNat (x.toNat / 2 ^ 0)).toNat + 2 ^ 8 * (UInt8.ofNat (x.toNat / 2 ^ 8)).toNat +
    2 ^ 16 * (UInt8.ofNat (x.toNat / 2 ^ 16)).toNat + 2 ^ 24 * (UInt8.ofNat (x.toNat / 2 ^ 24)).toNat)).toNat = x.toNat
  simp only [UInt8.toNat_ofNat', UInt32.toNat_ofNat']
  omega

theorem bytes_ofBytes (b₀ b₁ b₂ b₃ : UInt8) : bytes (ofBytes [b₀, b₁, b₂, b₃]) = [b₀, b₁, b₂, b₃] := by
  have h₀ := b₀.toNat_lt
  have h₁ := b₁.toNat_lt
  have h₂ := b₂.toNat_lt
  have h₃ := b₃.toNat_lt
  have hword : (ofBytes [b₀, b₁, b₂, b₃]).toNat =
      b₀.toNat + 2 ^ 8 * b₁.toNat + 2 ^ 16 * b₂.toNat + 2 ^ 24 * b₃.toNat := by
    show (UInt32.ofNat (b₀.toNat + 2 ^ 8 * b₁.toNat + 2 ^ 16 * b₂.toNat + 2 ^ 24 * b₃.toNat)).toNat = _
    rw [UInt32.toNat_ofNat']
    omega
  have hbyte : ∀ (k : Nat) (b : UInt8), (ofBytes [b₀, b₁, b₂, b₃]).toNat / 2 ^ (8 * k) % 2 ^ 8 = b.toNat →
      UInt8.ofNat ((ofBytes [b₀, b₁, b₂, b₃]).toNat / 2 ^ (8 * k)) = b := fun k b h => by
    apply UInt8.toNat_inj.1
    rw [UInt8.toNat_ofNat', h]
  show [UInt8.ofNat _, UInt8.ofNat _, UInt8.ofNat _, UInt8.ofNat _] = _
  rw [hbyte 0 b₀ (by rw [hword]; omega), hbyte 1 b₁ (by rw [hword]; omega), hbyte 2 b₂ (by rw [hword]; omega),
    hbyte 3 b₃ (by rw [hword]; omega)]

/-- Four bytes are those of their word. -/
theorem bytes_ofBytes_of_length {bs : List UInt8} (h : bs.length = 4) : bytes (ofBytes bs) = bs := by
  match bs, h with
  | [b₀, b₁, b₂, b₃], _ => exact bytes_ofBytes b₀ b₁ b₂ b₃

/-! ## Memory -/

def load (m : Memory) (a : UInt32) : UInt32 := ofBytes (read m a 4)

def store (m : Memory) (a x : UInt32) : Memory := write m a (bytes x)

theorem load_store (m : Memory) (a x : UInt32) : load (store m a x) a = x := by
  unfold load store
  have hread := read_write m a (bytes x) (by rw [length_bytes]; decide)
  rw [length_bytes] at hread
  rw [hread, ofBytes_bytes]

end WordBytes
