import CanTsnGateway.Ethernet.FifoView

/-!
# The frame in a buffer

    destination | source | frame type, high byte first | container

The gateway copies the container behind the header's place and `Eth_Transmit` puts the
header in front of it.  What the buffer then holds is `ethFrame` (`read_insertFrame`), and
no other buffer has changed (`read_insertFrame_of_apart`).
-/

namespace CanTsn

open ByteMemory

/-- The Ethernet frame around a container. -/
def ethFrame (low high : UInt32) (container : List UInt8) : List UInt8 :=
  gmac0MacAddr ++ (gmacGetMacAddr low high ++ (uint16Bytes (ethLocalMacroHtons gwFrameType) ++ container))

theorem length_ethFrame (low high : UInt32) (container : List UInt8) :
    (ethFrame low high container).length = 14 + container.length := by
  simp only [ethFrame, gmac0MacAddr, gmacGetMacAddr, uint16Bytes, List.length_append, List.length_cons,
    List.length_nil]
  omega

theorem drop_ethFrame (low high : UInt32) (container : List UInt8) :
    (ethFrame low high container).drop 14 = container := rfl

theorem length_gmacGetMacAddr (low high : UInt32) : (gmacGetMacAddr low high).length = 6 := rfl

theorem take_read (m : Memory) (a : UInt32) {n k : Nat} (h : k ≤ n) : (read m a n).take k = read m a k := by
  obtain ⟨j, rfl⟩ := Nat.exists_eq_add_of_le h
  rw [read_add, List.take_left' (length_read m a k)]

section Header

variable {c : EthCtrl} {a b : UInt32} {container : List UInt8} {n : Nat}

/-- The buffer after the copy of the container and the header. -/
def insertFrame (c : EthCtrl) (a : UInt32) (container : List UInt8) : Memory :=
  ethInsertHeader { c with memory := write c.memory (a + ethFrameHeaderLength.toUInt32) container } a gwFrameType
    gmac0MacAddr

theorem insertFrame_eq (c : EthCtrl) (a : UInt32) (container : List UInt8) :
    insertFrame c a container = write (write (write (write c.memory (a + UInt32.ofNat 14) container) a gmac0MacAddr)
      (a + UInt32.ofNat 6) (gmacGetMacAddr c.macAddress0Low c.macAddress0High)) (a + UInt32.ofNat 12)
      (uint16Bytes (ethLocalMacroHtons gwFrameType)) := by
  have h0 : a + ethFrameMacDstOffset = a := UInt32.add_zero a
  unfold insertFrame ethInsertHeader ethLocalMemcpy
  rw [storeDown_eq_write _ _ _ (by decide), storeDown_eq_write _ _ _ (by rw [length_gmacGetMacAddr]; decide),
    storeDown_eq_write _ _ _ (by decide), h0]
  rfl

theorem read_insertFrame (ha : a.toNat + (14 + container.length) ≤ 2 ^ 32) :
    read (insertFrame c a container) a (14 + container.length) =
      ethFrame c.macAddress0Low c.macAddress0High container := by
  have hdst : gmac0MacAddr.length = 6 := rfl
  have hsrc := length_gmacGetMacAddr c.macAddress0Low c.macAddress0High
  have htype : (uint16Bytes (ethLocalMacroHtons gwFrameType)).length = 2 := rfl
  have h6 : (a + UInt32.ofNat 6).toNat = a.toNat + 6 := toNat_add_ofNat (by omega)
  have h12 : (a + UInt32.ofNat 12).toNat = a.toNat + 12 := toNat_add_ofNat (by omega)
  have h14 : container = [] ∨ (a + UInt32.ofNat 14).toNat = a.toNat + 14 := by
    rcases container with - | ⟨x, xs⟩
    · exact Or.inl rfl
    · rw [List.length_cons] at ha
      exact Or.inr (toNat_add_ofNat (by omega))
  have hsplit : 14 + container.length = 6 + (6 + (2 + container.length)) := by omega
  have hadd12 : a + UInt32.ofNat 6 + UInt32.ofNat 6 = a + UInt32.ofNat 12 := by rw [UInt32.add_assoc]; rfl
  have hadd14 : a + UInt32.ofNat 12 + UInt32.ofNat 2 = a + UInt32.ofNat 14 := by rw [UInt32.add_assoc]; rfl
  unfold ethFrame
  rw [hsplit, read_add, read_add, read_add, hadd12, hadd14, insertFrame_eq]
  refine congrArg₂ _ ?_ (congrArg₂ _ ?_ (congrArg₂ _ ?_ ?_))
  · rw [read_write_of_apart (by unfold Apart; omega), read_write_of_apart (by unfold Apart; omega)]
    exact read_write _ a gmac0MacAddr (by decide)
  · rw [read_write_of_apart (by unfold Apart; omega)]
    exact read_write _ _ (gmacGetMacAddr c.macAddress0Low c.macAddress0High) (by rw [hsrc]; decide)
  · exact read_write _ _ (uint16Bytes (ethLocalMacroHtons gwFrameType)) (by decide)
  · rcases h14 with rfl | h14
    · rfl
    · rw [read_write_of_apart (by unfold Apart; omega), read_write_of_apart (by unfold Apart; omega),
        read_write_of_apart (by unfold Apart; omega)]
      exact read_write _ _ container (by omega)

/-- Only the buffer changes. -/
theorem read_insertFrame_of_apart (hlen : 14 + container.length ≤ 1536) (h : Apart a 1536 b n) :
    read (insertFrame c a container) b n = read c.memory b n := by
  have hdst : gmac0MacAddr.length = 6 := rfl
  have hsrc := length_gmacGetMacAddr c.macAddress0Low c.macAddress0High
  have htype : (uint16Bytes (ethLocalMacroHtons gwFrameType)).length = 2 := rfl
  -- a part of the buffer is apart from what the buffer is apart from
  have hpart : ∀ i k, i < 1536 → i + k ≤ 1536 → Apart (a + UInt32.ofNat i) k b n := by
    intro i k hi hik
    have hai : (a + UInt32.ofNat i).toNat = a.toNat + i := toNat_add_ofNat (by unfold Apart at h; omega)
    unfold Apart at *
    omega
  rw [insertFrame_eq, read_write_of_apart (hpart 12 _ (by decide) (by omega)), read_write_of_apart (hpart 6 _ (by decide) (by omega)),
    read_write_of_apart, read_write_of_apart (hpart 14 _ (by decide) (by omega))]
  exact h.mono (by omega) (Nat.le_refl n)

end Header

end CanTsn
