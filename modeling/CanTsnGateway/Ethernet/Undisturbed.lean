import CanTsnGateway.Ethernet.Delivery

/-!
# `Eth_Transmit` undisturbed

`ethTransmit` sends a frame in one go, `transmitStep` statement by statement.  With no
interrupt and no DMA in between they do the same.

    nine statements after an offer: the answer and the driver of `ethTransmit`
                                                             (offer_undisturbed)
-/

namespace CanTsn

open ByteMemory StepMachine

/-! ## The descriptor -/

namespace TxRing

theorem write_write (r : TxRing) (k : Nat) (b b' : TxDesc) : (r.write k b).write k b' = r.write k b' := by
  simp only [write, List.set_set]

theorem write_of_ge {r : TxRing} {k : Nat} (hk : r.ringDesc.length ≤ k) (b : TxDesc) : r.write k b = r := by
  rw [write, List.set_eq_of_length_le hk]

theorem bd_write_self {r : TxRing} {k : Nat} (hk : k < r.ringDesc.length) (b : TxDesc) : (r.write k b).bd k = b := by
  simp [write, bd, hk]

theorem next_write (r : TxRing) (k : Nat) (b : TxDesc) (j : Nat) : (r.write k b).next j = r.next j := by
  simp only [next, write, List.length_set]

end TxRing

namespace EthCtrl

theorem setRing_setRing (c : EthCtrl) (f : UInt8) (r r' : TxRing) : (c.setRing f r).setRing f r' = c.setRing f r' := by
  simp only [setRing, EthTx.setRing, Function.update_idem]

theorem ring_setRing_self (c : EthCtrl) (f : UInt8) (r : TxRing) : (c.setRing f r).tx.ring f = r := by
  simp only [setRing, EthTx.setRing, Function.update_self]

end EthCtrl

section Undisturbed

variable {s s' : TxSide} {t : Transmitting} {c : EthCtrl} {es : List TxEvent}

/-- The writes of a descriptor one after the other are those of `gmacSendFrame`. -/
theorem fill_eq_sendFrame {r : TxRing} (data : UInt32) (length : UInt16)
    (hown : ¬ (r.bd r.tail).des3 &&& gmacTdes3OwnMask ≠ 0) :
    let r₁ := r.write r.tail { r.bd r.tail with des0 := data, info0 := data }
    let r₂ := r₁.write r.tail { r₁.bd r.tail with des3 := length.toUInt32 }
    let r₃ := r₂.write r.tail { r₂.bd r.tail with des3 := (r₂.bd r.tail).des3 ||| gmacTdes3OwnMask }
    gmacSendFrame r data length = (true, { r₃ with tail := r₃.next r.tail }) := by
  unfold gmacSendFrame
  simp only [if_neg hown]
  rcases Nat.lt_or_ge r.tail r.ringDesc.length with hlt | hge
  · simp only [TxRing.write_write, TxRing.next_write, TxRing.bd_write_self hlt]
  · simp only [TxRing.write_of_ge hge]

theorem run_advance {p : TransmitPc} {n : Nat} (ht : s.transmit = some t)
    (hstep : transmitStep s.ctrl t = some (c, .running p))
    (hrun : txSide.run { s with ctrl := c, transmit := some { t with pc := p } } (List.replicate n .advance) =
      some (s', es)) :
    txSide.run s (List.replicate (n + 1) .advance) = some (s', es) := by
  have hadv : txSide.step s .advance = some ({ s with ctrl := c, transmit := some { t with pc := p } }, []) := by
    simp only [txSide, ht]
    exact advance_of_step hstep
  rw [List.replicate_succ]
  exact (txSide.run_cons_eq_some _ _ _ _ _).2 ⟨_, _, _, hadv, hrun, rfl⟩

/-- With no `Eth_Transmit` under way nothing advances. -/
theorem run_idle (hidle : s.transmit = none) (n : Nat) : txSide.run s (List.replicate n .advance) = some (s, []) := by
  induction n with
  | zero => rfl
  | succ n ih =>
    rw [List.replicate_succ]
    exact (txSide.run_cons_eq_some _ _ _ _ _).2 ⟨s, [], [], by simp only [txSide, hidle], ih, rfl⟩

theorem run_returned {ok : Bool} (ht : s.transmit = some t) (hstep : transmitStep s.ctrl t = some (c, .returned ok))
    (n : Nat) : txSide.run s (List.replicate (n + 1) .advance) =
      some ({ s with ctrl := c, transmit := none }, [.transmitted t.bufIdx t.lenByte ok]) := by
  have hadv : txSide.step s .advance =
      some ({ s with ctrl := c, transmit := none }, [.transmitted t.bufIdx t.lenByte ok]) := by
    simp only [txSide, ht]
    exact advance_of_step hstep
  rw [List.replicate_succ]
  exact (txSide.run_cons_eq_some _ _ _ _ _).2 ⟨_, _, [], hadv, run_idle rfl n, rfl⟩

/-- `Gmac_Ip_SendFrame`, statement by statement. -/
theorem run_sendFrame (ht : s.transmit = some t) (hpc : t.pc = .testOwn) :
    txSide.run s (List.replicate 5 .advance) =
      some ({ s with
          ctrl := s.ctrl.setRing t.fifoIdx
            (gmacSendFrame (s.ctrl.tx.ring t.fifoIdx) t.frameBuffer t.frameLength).2
          transmit := none },
        [.transmitted t.bufIdx t.lenByte
          (gmacSendFrame (s.ctrl.tx.ring t.fifoIdx) t.frameBuffer t.frameLength).1]) := by
  by_cases hown : ((s.ctrl.tx.ring t.fifoIdx).bd (s.ctrl.tx.ring t.fifoIdx).tail).des3 &&& gmacTdes3OwnMask ≠ 0
  · have hsend : gmacSendFrame (s.ctrl.tx.ring t.fifoIdx) t.frameBuffer t.frameLength =
        (false, s.ctrl.tx.ring t.fifoIdx) := if_pos hown
    have hsame : s.ctrl.setRing t.fifoIdx (s.ctrl.tx.ring t.fifoIdx) = s.ctrl := by
      simp only [EthCtrl.setRing, EthTx.setRing, Function.update_eq_self]
    rw [hsend, hsame]
    exact run_returned ht (by simp only [transmitStep, hpc, if_pos hown]) 4
  · rw [fill_eq_sendFrame t.frameBuffer t.frameLength hown]
    -- each statement reads the ring that the one before it has written
    refine run_advance ht (by simp only [transmitStep, hpc, if_neg hown]; rfl) (run_advance rfl rfl ?_)
    refine run_advance rfl (by simp only [transmitStep, EthCtrl.ring_setRing_self, EthCtrl.setRing_setRing]; rfl) ?_
    refine run_advance rfl (by simp only [transmitStep, EthCtrl.ring_setRing_self, EthCtrl.setRing_setRing]; rfl) ?_
    refine (run_returned rfl (by simp only [transmitStep, EthCtrl.ring_setRing_self, EthCtrl.setRing_setRing]; rfl) 0).trans ?_
    rfl

/-- The entry goes to the end of the request list. -/
theorem run_link (ht : s.transmit = some t) (hpc : t.pc = .testHead)
    (hq : (s.ctrl.transmissionRequests t.fifoIdx).pQueueHead = none ∨
      (s.ctrl.transmissionRequests t.fifoIdx).pQueueTail.isSome) :
    ∃ c, txSide.run s (List.replicate 4 .advance) =
        some ({ s with ctrl := c, transmit := some { t with pc := .testOwn } }, []) ∧ c.tx = s.ctrl.tx := by
  have hterminate : ∀ c : EthCtrl, (c.transmissionRequests t.fifoIdx).pQueueTail = some t.bufIdx →
      transmitStep c { t with pc := .terminate } = some (c.setNext t.bufIdx none, .running .testOwn) := by
    intro c hc
    simp only [transmitStep, hc, Option.map_some]
  by_cases hhead : (s.ctrl.transmissionRequests t.fifoIdx).pQueueHead = none
  · have hfirst : transmitStep s.ctrl t = some (s.ctrl, .running .setHead) := by
      simp only [transmitStep, hpc, if_pos hhead]
    refine ⟨_, run_advance ht hfirst (run_advance (p := .setTail) rfl rfl (run_advance (p := .terminate) rfl rfl
      (run_advance (p := .testOwn) rfl (hterminate _ ?_) rfl))), rfl⟩
    simp only [EthCtrl.setRequests, Function.update_self]
  · obtain ⟨tail, htail⟩ := Option.isSome_iff_exists.1 (hq.resolve_left hhead)
    have hfirst : transmitStep s.ctrl t = some (s.ctrl, .running .linkTail) := by
      simp only [transmitStep, hpc, if_neg hhead]
    have hlink : transmitStep s.ctrl { t with pc := .linkTail } =
        some (s.ctrl.setNext tail (some t.bufIdx), .running .moveTail) := by
      simp only [transmitStep, htail, Option.map_some]
    refine ⟨_, run_advance ht hfirst (run_advance rfl hlink (run_advance (p := .terminate) rfl rfl
      (run_advance (p := .testOwn) rfl (hterminate _ ?_) rfl))), rfl⟩
    simp only [EthCtrl.setRequests, Function.update_self]

/-- An `Eth_Transmit` that has passed its checks. -/
structure Entered (d : EthTx) (bufIdx : UInt32) (lenByte : UInt16) (c : EthCtrl) (t : Transmitting) : Prop where
  tx : c.tx = d
  pc : t.pc = .testHead
  args : t.bufIdx = bufIdx ∧ t.lenByte = lenByte
  send : ethTransmit d bufIdx lenByte =
    ((gmacSendFrame (d.ring t.fifoIdx) t.frameBuffer t.frameLength).1,
      d.setRing t.fifoIdx (gmacSendFrame (d.ring t.fifoIdx) t.frameBuffer t.frameLength).2)

theorem entered_of_enter {c₀ : EthCtrl} {bufIdx : UInt32} {frameType : UInt16} {txConfirmation : Bool}
    {lenByte : UInt16} {physAddr : List UInt8}
    (henter : ethTransmitEnter c₀ bufIdx frameType txConfirmation lenByte physAddr = some (c, t)) :
    Entered c₀.tx bufIdx lenByte c t := by
  unfold ethTransmitEnter at henter
  split at henter
  · cases henter
  · next hup =>
    split at henter
    · cases henter
    · next hbuf =>
      obtain ⟨rfl, rfl⟩ := Prod.mk.inj (Option.some.inj henter)
      exact ⟨rfl, rfl, ⟨rfl, rfl⟩, (if_neg hup).trans (if_neg hbuf)⟩

/-- **Undisturbed**, the statements of `Eth_Transmit` are `ethTransmit`. -/
theorem ethTransmit_of_advances {d : EthTx} {bufIdx : UInt32} {lenByte : UInt16} (ht : s.transmit = some t)
    (h : Entered d bufIdx lenByte s.ctrl t)
    (hq : (s.ctrl.transmissionRequests t.fifoIdx).pQueueHead = none ∨
      (s.ctrl.transmissionRequests t.fifoIdx).pQueueTail.isSome) :
    ∃ c, txSide.run s (List.replicate 9 .advance) =
        some ({ s with ctrl := c, transmit := none }, [.transmitted bufIdx lenByte (ethTransmit d bufIdx lenByte).1]) ∧
      c.tx = (ethTransmit d bufIdx lenByte).2 := by
  obtain ⟨c, hlink, htx⟩ := run_link ht h.pc hq
  have hrun := txSide.run_append hlink (run_sendFrame rfl rfl)
  refine ⟨c.setRing t.fifoIdx (gmacSendFrame (c.tx.ring t.fifoIdx) t.frameBuffer t.frameLength).2, ?_, ?_⟩
  · rw [h.send, ← h.args.1, ← h.args.2, ← h.tx, ← htx]
    exact hrun
  · rw [h.send, ← h.tx, ← htx]
    rfl

/-- What does not enter is refused. -/
theorem ethTransmit_of_not_enter {c : EthCtrl} {bufIdx : UInt32} {frameType : UInt16} {txConfirmation : Bool}
    {lenByte : UInt16} {physAddr : List UInt8}
    (henter : ethTransmitEnter c bufIdx frameType txConfirmation lenByte physAddr = none) :
    ethTransmit c.tx bufIdx lenByte = (false, c.tx) := by
  unfold ethTransmitEnter at henter
  unfold ethTransmit
  split at henter
  · next hup => rw [if_pos hup]
  · next hup =>
    rw [if_neg hup]
    split at henter
    · next hbuf => rw [if_pos hbuf]
    · cases henter

end Undisturbed

/-! ## In a run -/

section Run

variable {buffer : UInt8 → UInt32} {low high : UInt32} {memory : Memory} {is : List TxInput} {s : TxSide}
  {tr : List TxEvent}

/-- At the start of an `Eth_Transmit` the list is empty or has a last entry. -/
theorem SideOk.listed {K : (UInt8 → Marks) → Prop} {t : Transmitting} (h : SideOk buffer low high K s tr)
    (ht : s.transmit = some t) (hpc : t.pc = .testHead) :
    (s.ctrl.transmissionRequests t.fifoIdx).pQueueHead = none ∨
      (s.ctrl.transmissionRequests t.fifoIdx).pQueueTail.isSome := by
  obtain ⟨m, hm, -⟩ := h.fifos
  have hr := (hm t.fifoIdx (h.side.onFifo t ht)).ok.requests
  rw [pc_of_transmit (transmit_view buffer ht), hpc] at hr
  by_cases hlt : (m t.fifoIdx).head < (m t.fifoIdx).tail
  · exact Or.inr (Option.isSome_iff_exists.2 ⟨_, hr.tail (Nat.lt_of_le_of_lt (Nat.zero_le _) hlt)⟩)
  · exact Or.inl (hr.head.trans (if_neg hlt))

/-- **A container that is offered undisturbed** is sent as `ethTransmit` sends it. -/
theorem offer_undisturbed (hb : BuffersOk buffer)
    (hall : txSide.AllSteps Unfilled (TxSide.init buffer low high memory) is)
    (hrun : txSide.run (TxSide.init buffer low high memory) is = some (s, tr)) (hidle : s.transmit = none)
    {priority : UInt8} {container : List UInt8} (hshort : (TxInput.offer priority container).Short)
    {bufIdx ethPayload : UInt32} {n : UInt16} {d : EthTx}
    (hgrant : ethProvideTxBuffer s.ctrl.tx priority txBufferRequest = (.granted bufIdx ethPayload n, d)) :
    ∃ s', txSide.run s (.offer priority container :: List.replicate 9 .advance) =
        some (s', [.provided priority txBufferRequest (.granted bufIdx ethPayload n),
          .copied (vlanPcpToFifoIdx priority) bufIdx ethPayload n container,
          .transmitted bufIdx container.length.toUInt16 (ethTransmit d bufIdx container.length.toUInt16).1]) ∧
      s'.ctrl.tx = (ethTransmit d bufIdx container.length.toUInt16).2 ∧ s'.transmit = none := by
  have hstep : txSide.step s (.offer priority container) = some (offerContainer s priority container) := by
    simp only [txSide, hidle]
  obtain ⟨s₁, es, hstep', h, -⟩ := unfilled_step hb (unfilled_reached hb hall hrun) (i := .offer priority container)
    ⟨hshort, fun _ hirq => by cases hirq⟩ fun _ _ _ _ => trivial
  have hoffer : offerContainer s priority container = (s₁, es) := Option.some.inj (hstep.symm.trans hstep')
  unfold offerContainer at hoffer
  simp only [hgrant] at hoffer
  cases henter : ethTransmitEnter { s.ctrl with tx := d, memory := write s.ctrl.memory ethPayload container } bufIdx
    gwFrameType true container.length.toUInt16 gmac0MacAddr with
  | none =>
    simp only [henter] at hoffer
    obtain ⟨rfl, rfl⟩ := Prod.mk.inj hoffer
    have hrefused : ethTransmit d bufIdx container.length.toUInt16 = (false, d) := ethTransmit_of_not_enter henter
    refine ⟨_, (txSide.run_cons_eq_some _ _ _ _ _).2 ⟨_, _, [], hstep', run_idle (by exact hidle) 9, ?_⟩, ?_, hidle⟩
    · rw [hrefused]
      rfl
    · rw [hrefused]
  | some entry =>
    obtain ⟨c, t⟩ := entry
    simp only [henter] at hoffer
    obtain ⟨rfl, rfl⟩ := Prod.mk.inj hoffer
    have hentered := entered_of_enter henter
    obtain ⟨c', hadvance, htx⟩ := ethTransmit_of_advances rfl hentered (h.listed rfl hentered.pc)
    exact ⟨_, (txSide.run_cons_eq_some _ _ _ _ _).2 ⟨_, _, _, hstep', hadvance, rfl⟩, htx, rfl⟩

end Run

end CanTsn
