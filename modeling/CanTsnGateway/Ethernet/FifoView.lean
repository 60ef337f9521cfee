import CanTsnGateway.Lib.Ring
import CanTsnGateway.Model.EthTransmit

/-!
# What belongs to one transmit FIFO

Frame `k` of a FIFO uses slot `k % n` of its ring of `n`: `txBufferAddr` is the data buffer,
`txEntry` the entry of `Eth_axTxBufferIdxMap`.  The buffers of the three rings are arrays
(`BuffersOk`), so that two slots have two buffers (`apart_txBufferAddr_of_slot`) and two entries
(`txEntry_inj`).  `fifoView s f` is everything in the state that FIFO `f` works with;
whatever happens on another FIFO leaves it as it is.
-/

namespace CanTsn

open ByteMemory

/-- The data buffer arrays lie in the address space and apart from each other. -/
structure BuffersOk (buffer : UInt8 → UInt32) : Prop where
  pos : ∀ f < ethMaxTxFifoSupported, 0 < (buffer f).toNat
  fits : ∀ f < ethMaxTxFifoSupported, (buffer f).toNat + 1536 * txRingSize f ≤ 2 ^ 32
  apart : ∀ f < ethMaxTxFifoSupported, ∀ g < ethMaxTxFifoSupported, f ≠ g →
    Apart (buffer f) (1536 * txRingSize f) (buffer g) (1536 * txRingSize g)

/-- Three arrays one behind the other. -/
def txBuffers (f : UInt8) : UInt32 := if f = 0 then 0x34000000 else if f = 1 then 0x3400C000 else 0x34012000

/-- The data buffer of frame `k`. -/
def txBufferAddr (buffer : UInt8 → UInt32) (f : UInt8) (k : Nat) : UInt32 :=
  ringBuffer (buffer f) txBufferLen (k % txRingSize f)

/-- The buffer index of frame `k`. -/
def txEntry (f : UInt8) (k : Nat) : UInt32 := firstTxBufferIdxInFifo f + (k % txRingSize f).toUInt32

theorem fifo_cases {f : UInt8} (hf : f < ethMaxTxFifoSupported) : f = 0 ∨ f = 1 ∨ f = 2 := by
  have hlt : f.toNat < 3 := UInt8.lt_iff_toNat_lt.1 hf
  simp only [← UInt8.toNat_inj]
  show f.toNat = 0 ∨ f.toNat = 1 ∨ f.toNat = 2
  omega

theorem txBuffers_ok : BuffersOk txBuffers := by
  refine ⟨fun f hf => ?_, fun f hf => ?_, fun f hf g hg hfg => ?_⟩
  · rcases fifo_cases hf with rfl | rfl | rfl <;> decide
  · rcases fifo_cases hf with rfl | rfl | rfl <;> decide
  · unfold Apart
    rcases fifo_cases hf with rfl | rfl | rfl <;> rcases fifo_cases hg with rfl | rfl | rfl <;>
      first | exact absurd rfl hfg | decide

theorem txRingSize_pos (f : UInt8) : 0 < txRingSize f := by
  unfold txRingSize
  split <;> decide

theorem txRingSize_le (f : UInt8) : txRingSize f ≤ 32 := by
  unfold txRingSize
  split <;> decide

theorem slot_lt (f : UInt8) (k : Nat) : k % txRingSize f < txRingSize f := Nat.mod_lt k (txRingSize_pos f)

/-! ## Buffers -/

section Buffers

variable {buffer : UInt8 → UInt32} (hb : BuffersOk buffer) {f g : UInt8} (hf : f < ethMaxTxFifoSupported)
  (hg : g < ethMaxTxFifoSupported)

include hb hf

theorem toNat_txBufferAddr (k : Nat) :
    (txBufferAddr buffer f k).toNat = (buffer f).toNat + 1536 * (k % txRingSize f) := by
  have hfits := hb.fits f hf
  have hslot := slot_lt f k
  have hle := txRingSize_le f
  have hlen : txBufferLen.toUInt32.toNat = 1536 := rfl
  unfold txBufferAddr ringBuffer
  rw [UInt32.toNat_add, UInt32.toNat_mul, hlen, Nat.toUInt32_eq, UInt32.toNat_ofNat']
  omega

theorem txBufferAddr_ne_zero (k : Nat) : txBufferAddr buffer f k ≠ 0 := by
  intro h
  have hpos := hb.pos f hf
  have := toNat_txBufferAddr hb hf k
  rw [h, UInt32.toNat_zero] at this
  omega

theorem txBufferAddr_inj {j k : Nat} (h : txBufferAddr buffer f j = txBufferAddr buffer f k) :
    j % txRingSize f = k % txRingSize f := by
  have hj := toNat_txBufferAddr hb hf j
  have hk := toNat_txBufferAddr hb hf k
  rw [h] at hj
  omega

/-- The frame in a buffer ends in the address space. -/
theorem txBufferAddr_fits (k : Nat) : (txBufferAddr buffer f k).toNat + 1536 ≤ 2 ^ 32 := by
  have := hb.fits f hf
  have := slot_lt f k
  rw [toNat_txBufferAddr hb hf]
  omega

theorem apart_txBufferAddr_of_slot {j k : Nat} (h : j % txRingSize f ≠ k % txRingSize f) :
    Apart (txBufferAddr buffer f j) 1536 (txBufferAddr buffer f k) 1536 := by
  have := txBufferAddr_fits hb hf j
  have := txBufferAddr_fits hb hf k
  unfold Apart
  rw [toNat_txBufferAddr hb hf] at *
  rw [toNat_txBufferAddr hb hf] at *
  omega

include hg

theorem apart_txBufferAddr_of_fifo (hfg : f ≠ g) (j k : Nat) :
    Apart (txBufferAddr buffer f j) 1536 (txBufferAddr buffer g k) 1536 := by
  have hapart := hb.apart f hf g hg hfg
  have hj := slot_lt f j
  have hk := slot_lt g k
  unfold Apart at *
  rw [toNat_txBufferAddr hb hf, toNat_txBufferAddr hb hg]
  omega

end Buffers

/-! ## Entries -/

theorem toNat_txEntry {f : UInt8} (hf : f < ethMaxTxFifoSupported) (k : Nat) :
    (txEntry f k).toNat = (firstTxBufferIdxInFifo f).toNat + k % txRingSize f := by
  have hslot := slot_lt f k
  have hle := txRingSize_le f
  have hfirst : (firstTxBufferIdxInFifo f).toNat ≤ 48 := by rcases fifo_cases hf with rfl | rfl | rfl <;> decide
  unfold txEntry
  rw [UInt32.toNat_add, Nat.toUInt32_eq, UInt32.toNat_ofNat']
  omega

theorem txEntry_lt {f : UInt8} (hf : f < ethMaxTxFifoSupported) (k : Nat) : txEntry f k < txBufferCount := by
  have hslot := slot_lt f k
  have h64 : txBufferCount.toNat = 64 := rfl
  rw [UInt32.lt_iff_toNat_lt, toNat_txEntry hf, h64]
  rcases fifo_cases hf with rfl | rfl | rfl
  · have : txRingSize 0 = 32 := rfl
    have : (firstTxBufferIdxInFifo 0).toNat = 0 := rfl
    omega
  · have : txRingSize 1 = 16 := rfl
    have : (firstTxBufferIdxInFifo 1).toNat = 32 := rfl
    omega
  · have : txRingSize 2 = 16 := rfl
    have : (firstTxBufferIdxInFifo 2).toNat = 48 := rfl
    omega

/-- The buffer indices of a FIFO are its own. -/
theorem txEntry_inj {f g : UInt8} (hf : f < ethMaxTxFifoSupported) (hg : g < ethMaxTxFifoSupported)
    {j k : Nat} (h : txEntry f j = txEntry g k) : f = g ∧ j % txRingSize f = k % txRingSize g := by
  have hj := toNat_txEntry hf j
  have hk := toNat_txEntry hg k
  have hj' := slot_lt f j
  have hk' := slot_lt g k
  rw [h, hk] at hj
  have h0 : (firstTxBufferIdxInFifo 0).toNat = 0 := rfl
  have h1 : (firstTxBufferIdxInFifo 1).toNat = 32 := rfl
  have h2 : (firstTxBufferIdxInFifo 2).toNat = 48 := rfl
  have n0 : txRingSize 0 = 32 := rfl
  have n1 : txRingSize 1 = 16 := rfl
  have n2 : txRingSize 2 = 16 := rfl
  rcases fifo_cases hf with rfl | rfl | rfl <;> rcases fifo_cases hg with rfl | rfl | rfl <;>
    simp only [h0, h1, h2, n0, n1, n2] at hj hj' hk' ⊢ <;> simp <;> omega

theorem txBufferAddr_add_size (buffer : UInt8 → UInt32) (f : UInt8) (k : Nat) :
    txBufferAddr buffer f (k + txRingSize f) = txBufferAddr buffer f k := by
  unfold txBufferAddr
  rw [Nat.add_mod_right]

/-- Less than a lap apart, two frames have two entries. -/
theorem txEntry_eq_iff {f : UInt8} (hf : f < ethMaxTxFifoSupported) (lo : Nat) {j k : Nat}
    (hj : lo ≤ j ∧ j < lo + txRingSize f) (hk : lo ≤ k ∧ k < lo + txRingSize f) :
    txEntry f j = txEntry f k ↔ j = k :=
  ⟨fun h => Ring.slot_inj hj hk (txEntry_inj hf hf h).2, fun h => by rw [h]⟩

/-! ## The view -/

structure FifoView where
  ring : TxRing
  requests : EthQueueInfo
  /-- by frame: entry, `bTxConfirmation`, `pNextBuffer`, data buffer -/
  entry : Nat → TxBufferIdx
  confirm : Nat → Bool
  next : Nat → Option UInt32
  data : Nat → List UInt8
  dma : Nat
  transmit : Option Transmitting

/-- The part of an `Eth_Transmit` under way that is on this FIFO. -/
def transmitOn (t : Option Transmitting) (f : UInt8) : Option Transmitting :=
  t.filter fun t => t.fifoIdx = f

def fifoView (buffer : UInt8 → UInt32) (s : TxSide) (f : UInt8) : FifoView where
  ring := s.ctrl.tx.ring f
  requests := s.ctrl.transmissionRequests f
  entry := fun k => s.ctrl.tx.txBufferIdxMap (txEntry f k)
  confirm := fun k => s.ctrl.bTxConfirmation (txEntry f k)
  next := fun k => s.ctrl.pNextBuffer (txEntry f k)
  data := fun k => read s.ctrl.memory (txBufferAddr buffer f k) 1536
  dma := s.dmaDesc f
  transmit := transmitOn s.transmit f

end CanTsn
