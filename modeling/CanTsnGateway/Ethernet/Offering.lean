import CanTsnGateway.Ethernet.Frame
import CanTsnGateway.Ethernet.Requests

/-!
# A container is offered

`Eth_ProvideTxBuffer` grants a buffer exactly when the ring has one (`provide_of_room`,
`provide_of_full`).  The grant is a new frame: its buffer holds the header and the
container, and `Eth_Transmit` has passed its checks (`offer_of_room`).
-/

namespace CanTsn

open ByteMemory Ring

section Provide

variable {buffer : UInt8 → UInt32} {f : UInt8} {frames : List (List UInt8)} {r : TxRing} {m : Marks}

namespace DescsOk

theorem length_of {pc : Option TransmitPc} (h : DescsOk buffer f frames r m pc) (k : Nat) :
    (r.of f k).info1 &&& gmacInfo1LengthMask = 1536 := by
  have hpos := txRingSize_pos f
  exact h.length _ ((mem_ringDesc h.size k).2 ⟨k, ⟨Nat.le_refl k, by omega⟩, rfl⟩)

theorem bd_current (h : DescsOk buffer f frames r m none) : r.bd r.current = r.of f m.tail := by
  rw [h.current]
  rfl

/-- The ring after `Gmac_Ip_GetTxBuff`. -/
def locked (r : TxRing) (f : UInt8) (k : Nat) : TxRing :=
  { r.write (k % txRingSize f) { r.of f k with info1 := (r.of f k).info1 ||| gmacInfo1LockedMask } with
    current := (k + 1) % txRingSize f }

theorem getTxBuff_of_room (h : DescsOk buffer f frames r m none) (hm : MarksOk f m none)
    (hroom : m.tail < m.lo + txRingSize f) {length : UInt16} (hlen : length.toNat ≤ 1536) :
    gmacGetTxBuff r length =
      (⟨.success, txBufferAddr buffer f m.tail, 1536, m.tail % txRingSize f⟩, locked r f m.tail) := by
  obtain ⟨hown, hlock, hdes⟩ := h.free_tail hm hroom
  have hfree : ¬ ((r.of f m.tail).des3 &&& gmacTdes3OwnMask ≠ 0 ∨
      (r.of f m.tail).info1 &&& gmacInfo1LockedMask ≠ 0) := fun hor => hor.elim hown hlock
  have hfit : ¬ length.toUInt32 > 1536 := by
    have h1536 : (1536 : UInt32).toNat = 1536 := rfl
    show ¬ 1536 < length.toUInt32
    rw [UInt32.lt_iff_toNat_lt, UInt16.toNat_toUInt32, h1536]
    omega
  have hnext : r.next r.current = (m.tail + 1) % txRingSize f := by
    rw [h.current]
    exact next_mod h.size m.tail
  have hcurrent : r.current = m.tail % txRingSize f := h.current
  unfold gmacGetTxBuff
  simp only [h.bd_current, h.length_of, hdes, hnext, if_neg hfree, if_neg hfit]
  rw [hcurrent, ← hdes]
  rfl

theorem getTxBuff_of_full (h : DescsOk buffer f frames r m none) (hm : MarksOk f m none)
    (hfull : m.tail = m.lo + txRingSize f) (length : UInt16) :
    gmacGetTxBuff r length = (⟨.txBuffBusy, 0, length, 0⟩, r) := by
  have hbusy : (r.of f m.tail).des3 &&& gmacTdes3OwnMask ≠ 0 ∨
      (r.of f m.tail).info1 &&& gmacInfo1LockedMask ≠ 0 := Or.inr (h.locked_tail hm hfull)
  unfold gmacGetTxBuff
  simp only [h.bd_current, if_pos hbusy]

end DescsOk

/-! ## `Eth_ProvideTxBuffer` -/

variable {d : EthTx} {priority : UInt8}

theorem provide_of_room (hup : d.initialised = true)
    (h : DescsOk buffer (vlanPcpToFifoIdx priority) frames (d.ring (vlanPcpToFifoIdx priority)) m none)
    (hm : MarksOk (vlanPcpToFifoIdx priority) m none)
    (hroom : m.tail < m.lo + txRingSize (vlanPcpToFifoIdx priority)) :
    ethProvideTxBuffer d priority txBufferRequest =
      (.granted (txEntry (vlanPcpToFifoIdx priority) m.tail)
        (txBufferAddr buffer (vlanPcpToFifoIdx priority) m.tail + ethFrameHeaderLength.toUInt32) 1522,
      (d.setRing (vlanPcpToFifoIdx priority)
        (DescsOk.locked (d.ring (vlanPcpToFifoIdx priority)) (vlanPcpToFifoIdx priority) m.tail)).setBuffer
        (txEntry (vlanPcpToFifoIdx priority) m.tail)
        ⟨vlanPcpToFifoIdx priority, txBufferAddr buffer (vlanPcpToFifoIdx priority) m.tail⟩) := by
  have hlen : (txBufferRequest + ethFrameHeaderLength).toNat ≤ 1536 := by decide
  have hmax : ¬ txBufferRequest > 65535 - ethFrameHeaderLength := by decide
  have hinit : ¬ d.initialised = false := by rw [hup]; decide
  unfold ethProvideTxBuffer
  rw [if_neg hinit, if_neg hmax]
  simp only [h.getTxBuff_of_room hm hroom hlen]
  rfl

theorem provide_of_full (hup : d.initialised = true)
    (h : DescsOk buffer (vlanPcpToFifoIdx priority) frames (d.ring (vlanPcpToFifoIdx priority)) m none)
    (hm : MarksOk (vlanPcpToFifoIdx priority) m none)
    (hfull : m.tail = m.lo + txRingSize (vlanPcpToFifoIdx priority)) :
    ethProvideTxBuffer d priority txBufferRequest = (.refused .busy txBufferRequest, d) := by
  have hmax : ¬ txBufferRequest > 65535 - ethFrameHeaderLength := by decide
  have hinit : ¬ d.initialised = false := by rw [hup]; decide
  have hback : txBufferRequest + ethFrameHeaderLength - ethFrameHeaderLength = txBufferRequest := by decide
  unfold ethProvideTxBuffer
  rw [if_neg hinit, if_neg hmax]
  simp only [h.getTxBuff_of_full hm hfull, hback]

end Provide

theorem vlanPcpToFifoIdx_lt (priority : UInt8) : vlanPcpToFifoIdx priority < ethMaxTxFifoSupported := by
  have htable : ∀ n < 8, [(0 : UInt8), 1, 2, 0, 0, 0, 0, 0].getD n 0 < ethMaxTxFifoSupported := by decide
  unfold vlanPcpToFifoIdx
  rcases Nat.lt_or_ge priority.toNat 8 with h | h
  · exact htable _ h
  · rw [List.getD_eq_getElem?_getD, List.getElem?_eq_none h]
    decide

/-! ## The new frame -/

section Offer

variable {buffer : UInt8 → UInt32} {f g : UInt8} {s : TxSide} {k : Nat} {container : List UInt8}

/-- The state with frame `k` granted and `Eth_Transmit` entered. -/
def offered (buffer : UInt8 → UInt32) (f : UInt8) (s : TxSide) (k : Nat) (container : List UInt8) : TxSide where
  ctrl := { s.ctrl with
    tx := (s.ctrl.tx.setRing f (DescsOk.locked (s.ctrl.tx.ring f) f k)).setBuffer (txEntry f k)
      ⟨f, txBufferAddr buffer f k⟩
    bTxConfirmation := Function.update s.ctrl.bTxConfirmation (txEntry f k) true
    memory := insertFrame s.ctrl (txBufferAddr buffer f k) container }
  transmit := some ⟨txEntry f k, txBufferAddr buffer f k, f, container.length.toUInt16, .testHead⟩
  dmaDesc := s.dmaDesc

theorem view_offered_of_ne (hb : BuffersOk buffer) (hf : f < ethMaxTxFifoSupported) (hg : g < ethMaxTxFifoSupported)
    (hgf : g ≠ f) (hlen : container.length ≤ 1522) (hnone : s.transmit = none) :
    fifoView buffer (offered buffer f s k container) g = fifoView buffer s g := by
  have hentry : ∀ j, txEntry g j ≠ txEntry f k := fun j h => hgf (txEntry_inj hg hf h).1
  have hdata : ∀ j, read (insertFrame s.ctrl (txBufferAddr buffer f k) container) (txBufferAddr buffer g j) 1536 =
      read s.ctrl.memory (txBufferAddr buffer g j) 1536 := fun j =>
    read_insertFrame_of_apart (by omega) (apart_txBufferAddr_of_fifo hb hf hg (Ne.symm hgf) k j)
  have htransmit : transmitOn (some ⟨txEntry f k, txBufferAddr buffer f k, f, container.length.toUInt16, .testHead⟩) g =
      transmitOn s.transmit g := by
    rw [hnone]
    unfold transmitOn
    rw [Option.filter_some, if_neg (by rw [decide_eq_true_iff]; exact Ne.symm hgf)]
    rfl
  unfold fifoView offered EthTx.setBuffer EthTx.setRing
  simp only [Function.update_of_ne hgf, Function.update_of_ne (hentry _), hdata, htransmit]

/-- The FIFO's part of the new frame. -/
theorem view_offered (s : TxSide) (k : Nat) (container : List UInt8) :
    fifoView buffer (offered buffer f s k container) f = { fifoView buffer s f with
      ring := DescsOk.locked (fifoView buffer s f).ring f k
      entry := fun j =>
        if txEntry f j = txEntry f k then ⟨f, txBufferAddr buffer f k⟩ else (fifoView buffer s f).entry j
      confirm := fun j => if txEntry f j = txEntry f k then true else (fifoView buffer s f).confirm j
      data := fun j => read (insertFrame s.ctrl (txBufferAddr buffer f k) container) (txBufferAddr buffer f j) 1536
      transmit := some ⟨txEntry f k, txBufferAddr buffer f k, f, container.length.toUInt16, .testHead⟩ } := by
  unfold fifoView offered EthTx.setBuffer EthTx.setRing transmitOn
  simp only [Function.update_self, Function.update_apply, Option.filter_some, decide_true, if_true]

theorem FifoOk.offer {frames : List (List UInt8)} {v : FifoView} {m : Marks} {frame : List UInt8}
    {lenByte : UInt16} (hf : f < ethMaxTxFifoSupported) (h : FifoOk buffer f frames v m) (data : Nat → List UInt8)
    (hidle : v.transmit = none) (hroom : m.tail < m.lo + txRingSize f) (hshort : frame.length ≤ 1536)
    (hself : (data m.tail).take frame.length = frame)
    (hother : ∀ j, j % txRingSize f ≠ m.tail % txRingSize f → data j = v.data j)
    (hlen : (lenByte + ethFrameHeaderLength).toNat = frame.length) :
    FifoOk buffer f (frames ++ [frame]) { v with
      ring := DescsOk.locked v.ring f m.tail
      entry := fun j => if txEntry f j = txEntry f m.tail then ⟨f, txBufferAddr buffer f m.tail⟩ else v.entry j
      confirm := fun j => if txEntry f j = txEntry f m.tail then true else v.confirm j
      data := data
      transmit := some ⟨txEntry f m.tail, txBufferAddr buffer f m.tail, f, lenByte, .testHead⟩ } m := by
  have hm := h.marks
  have hd := h.descs
  have hr := h.requests
  have he := h.entries
  have hdata := h.data
  have hgr := h.granted
  have hnone : v.pc = none := by
    unfold FifoView.pc
    rw [hidle]
    rfl
  rw [hnone] at hm hd hr he hdata hgr
  have hlo : m.lo ≤ m.tail := Nat.le_trans hm.lo_le_dma hm.dma_le
  have hlo_head := hm.lo_le_head
  have hlo_dma := hm.lo_le_dma
  have hhead : m.head ≤ m.tail := hm.head_le
  have hgr : frames.length = m.tail := hgr
  have hlast : (frames ++ [frame]).getD m.tail [] = frame := by
    rw [← hgr, List.getD_eq_getElem?_getD, List.getElem?_concat_length, Option.getD_some]
  have hold : ∀ {j}, j < m.tail → (frames ++ [frame]).getD j [] = frames.getD j [] := fun hj =>
    List.getD_append _ _ _ _ (hgr ▸ hj)
  -- the other frames of the lap have other entries and other slots
  have hne : ∀ {j}, m.lo ≤ j → j < m.tail → txEntry f j ≠ txEntry f m.tail := fun hj hj' heq => by
    have := (txEntry_eq_iff hf m.lo ⟨hj, by omega⟩ ⟨hlo, hroom⟩).1 heq
    omega
  have hslot : ∀ {j}, m.lo ≤ j → j < m.tail → j % txRingSize f ≠ m.tail % txRingSize f := fun hj hj' heq => by
    have := slot_inj ⟨hj, by omega⟩ ⟨hlo, hroom⟩ heq
    omega
  refine ⟨⟨hlo_head, hlo_dma, hm.dma_le, Nat.le_succ_of_le hhead, hroom⟩, hd.grant hm hroom hgr frame,
    ⟨hr.head, hr.tail, hr.chain, hr.last⟩, ⟨fun k hk hk' => ?_, fun k hk hk' => ?_⟩, fun k hk hk' => ?_,
    fun t ht => ?_, ?_, h.dma, fun frame' hmem => ?_⟩
  · have hk' : k < m.tail + 1 := hk'
    show (if txEntry f k = txEntry f m.tail then _ else v.entry k) = _
    by_cases hkt : k = m.tail
    · rw [hkt, if_pos rfl]
    · rw [if_neg (hne (by omega) (by omega))]
      exact he.entry k hk (by show k < m.tail; omega)
  · have hk' : k < m.tail + 1 := hk'
    show (if txEntry f k = txEntry f m.tail then true else v.confirm k) = true
    by_cases hkt : k = m.tail
    · rw [hkt, if_pos rfl]
    · rw [if_neg (hne (by omega) (by omega))]
      exact he.confirm k hk (by show k < m.tail; omega)
  · have hk' : k < m.tail + 1 := hk'
    show (data k).take _ = _
    by_cases hkt : k = m.tail
    · rw [hkt, hlast]
      exact hself
    · rw [hold (by omega), hother k (hslot (by omega) (by omega))]
      exact hdata k hk (by show k < m.tail; omega)
  · obtain rfl := Option.some.inj ht
    exact ⟨rfl, rfl, rfl, by rw [hlast]; exact hlen⟩
  · rw [List.length_append, List.length_singleton, hgr]
    rfl
  · rcases List.mem_append.1 hmem with hmem | hmem
    · exact h.short frame' hmem
    · rw [List.mem_singleton.1 hmem]
      exact hshort

end Offer

end CanTsn
