import CanTsnGateway.Ethernet.SideRuns

/-!
# What the transmit side delivers

Whatever the order of offers, statements, interrupts and DMA work, as long as no interrupt
comes while a descriptor is being filled:

    the frames on the wire are the first of those granted, in order     (wire_in_order)
    no step writes into a buffer that the DMA has to send               (dma_buffers_untouched)

and as long as no request is lost either:

    buffers are confirmed in the order of their grants, once, and not
    before their frames have left                                       (confirmed_in_order)
    an interrupt confirms all that has left                             (irq_confirms_sent)
    a container is granted a buffer exactly when fewer are waiting
    for their confirmation than the ring has                            (granted_iff_room)
-/

namespace CanTsn

open ByteMemory StepMachine

section Delivery

variable {buffer : UInt8 → UInt32} {low high : UInt32} {memory : Memory} {is : List TxInput} {s : TxSide}
  {tr : List TxEvent} {f : UInt8}

/-! ## The trace of a FIFO -/

section Counts

variable {m : Marks}

theorem length_grantedFrames (low high : UInt32) (f : UInt8) (tr : List TxEvent) :
    (grantedFrames low high f tr).length = (copies f tr).length := List.length_map _

theorem length_copies (h : FifoSide buffer low high f (fifoView buffer s f) tr m) :
    (copies f tr).length = m.granted (fifoView buffer s f).pc := by
  rw [← length_grantedFrames low high f tr]
  exact h.ok.granted

theorem length_wireFrames (h : FifoSide buffer low high f (fifoView buffer s f) tr m) :
    (wireFrames f tr).length = m.dma := by
  have hgr := h.ok.granted
  have hdma := h.ok.marks.dma_le
  have hsent := m.sent_le_granted (fifoView buffer s f).pc
  rw [h.wire, List.length_take]
  omega

theorem length_grantedBuffers (h : FifoSide buffer low high f (fifoView buffer s f) tr m) :
    (grantedBuffers f tr).length = m.granted (fifoView buffer s f).pc := by
  rw [h.granted, List.length_map, List.length_range]

theorem length_confirmations (h : FifoSide buffer low high f (fifoView buffer s f) tr m) (hlo : m.lo = m.head) :
    (confirmations f tr).length = m.head := by
  rw [h.confirmed hlo, List.length_map, List.length_range]

end Counts

theorem unfilled_reached (hb : BuffersOk buffer)
    (hall : txSide.AllSteps Unfilled (TxSide.init buffer low high memory) is)
    (hrun : txSide.run (TxSide.init buffer low high memory) is = some (s, tr)) :
    SideOk buffer low high (fun _ => True) s tr := by
  obtain ⟨s', tr', hrun', h⟩ := unfilled_run hb hall
  obtain ⟨rfl, rfl⟩ := Prod.mk.inj (Option.some.inj (hrun'.symm.trans hrun))
  exact h

theorem calm_reached (hb : BuffersOk buffer)
    (hall : txSide.AllSteps Calm (TxSide.init buffer low high memory) is)
    (hrun : txSide.run (TxSide.init buffer low high memory) is = some (s, tr)) :
    SideOk buffer low high Lossless s tr := by
  obtain ⟨s', tr', hrun', h⟩ := calm_run hb hall
  obtain ⟨rfl, rfl⟩ := Prod.mk.inj (Option.some.inj (hrun'.symm.trans hrun))
  exact h

def txStart : TxSide := TxSide.init txBuffers 0x33221100 0x6644 fun _ => 0

/-- Containers sent one after the other, undisturbed. -/
def sendAll (priority : UInt8) (containers : List (List UInt8)) : List TxInput :=
  containers.flatMap fun container => .offer priority container :: List.replicate 9 .advance

/-- Two containers on ring 0: while the DMA has the first, the second is offered and an
interrupt comes; then both leave. -/
def sendTwo : List TxInput :=
  sendAll 0 [[1, 0]] ++ [.offer 0 [2, 0], .txIrq 0] ++ List.replicate 9 .advance ++
    [.dma 0 0 0, .txIrq 0, .dma 0 0 0, .txIrq 0]

/-- Ring 1 is filled, and a buffer comes back. -/
def fillRing : List TxInput :=
  sendAll 1 (List.replicate 16 [1, 0]) ++ [.offer 1 [2, 0], .dma 1 0 0, .txIrq 1, .offer 1 [2, 0]]

/-! ## The wire -/

theorem SideOk.wire_of_grants {K : (UInt8 → Marks) → Prop} (h : SideOk buffer low high K s tr)
    (hf : f < ethMaxTxFifoSupported) : wireFrames f tr <+: (copies f tr).map (ethFrame low high) := by
  obtain ⟨m, hm, -⟩ := h.fifos
  rw [(hm f hf).wire]
  exact List.take_prefix _ _

/-- **The wire.**  Every run comes back; what has left through a ring is the first of the
frames granted on it, header and container whole and in order; and every `Eth_Transmit`
that came back returned `E_OK`. -/
theorem wire_in_order (hb : BuffersOk buffer)
    (hall : txSide.AllSteps Unfilled (TxSide.init buffer low high memory) is) :
    ∃ s tr, txSide.run (TxSide.init buffer low high memory) is = some (s, tr) ∧
      (∀ f < ethMaxTxFifoSupported, wireFrames f tr <+: (copies f tr).map (ethFrame low high)) ∧
      ∀ bufIdx lenByte ok, .transmitted bufIdx lenByte ok ∈ tr → ok = true := by
  obtain ⟨s, tr, hrun, h⟩ := unfilled_run hb hall
  exact ⟨s, tr, hrun, fun f hf => h.wire_of_grants hf, h.returns⟩

theorem wire_in_order_one :
    ∃ s tr, txSide.run txStart sendTwo = some (s, tr) ∧
      (∀ f < ethMaxTxFifoSupported, wireFrames f tr <+: (copies f tr).map (ethFrame 0x33221100 0x6644)) ∧
      ∀ bufIdx lenByte ok, .transmitted bufIdx lenByte ok ∈ tr → ok = true :=
  wire_in_order txBuffers_ok (by decide +kernel)

example : (txSide.run txStart sendTwo).map (fun r => wireFrames 0 r.2) =
    some [ethFrame 0x33221100 0x6644 [1, 0], ethFrame 0x33221100 0x6644 [2, 0]] := by decide +kernel

/-- **No step writes into a buffer that the DMA has to send.** -/
theorem dma_buffers_untouched (hb : BuffersOk buffer)
    (hall : txSide.AllSteps Unfilled (TxSide.init buffer low high memory) is) :
    txSide.EveryStep (fun _ s _ s₁ _ => Untouched s s₁) [] (TxSide.init buffer low high memory) is := by
  refine txSide.everyStep_of (SideOk buffer low high fun _ => True) (fun s tr i s₁ es h hc hstep => ?_)
    ((sideOk_init hb low high memory).mono fun _ _ => trivial) hall
  obtain ⟨s', es', hstep', h', huntouched⟩ := unfilled_step hb h hc fun _ _ _ _ => trivial
  obtain ⟨rfl, rfl⟩ := Prod.mk.inj (Option.some.inj (hstep'.symm.trans hstep))
  exact ⟨h', huntouched⟩

theorem dma_buffers_untouched_one : txSide.EveryStep (fun _ s _ s₁ _ => Untouched s s₁) []
    txStart sendTwo :=
  dma_buffers_untouched txBuffers_ok (by decide +kernel)

/-! ## Confirmations -/

/-- **Confirmations** follow the grants, one for each, and the wire. -/
theorem confirmed_in_order (hb : BuffersOk buffer)
    (hall : txSide.AllSteps Calm (TxSide.init buffer low high memory) is) :
    ∃ s tr, txSide.run (TxSide.init buffer low high memory) is = some (s, tr) ∧
      ∀ f < ethMaxTxFifoSupported, confirmations f tr <+: grantedBuffers f tr ∧
        (confirmations f tr).length ≤ (wireFrames f tr).length := by
  obtain ⟨s, tr, hrun, h⟩ := calm_run hb hall
  refine ⟨s, tr, hrun, fun f hf => ?_⟩
  obtain ⟨m, hm, hlo⟩ := h.fifos
  have hside := hm f hf
  constructor
  · have hsplit : (m f).granted (fifoView buffer s f).pc =
        (m f).head + ((m f).granted (fifoView buffer s f).pc - (m f).head) :=
      (Nat.add_sub_of_le hside.ok.marks.head_le).symm
    rw [hside.confirmed (hlo f hf), hside.granted, hsplit, List.range_add, List.map_append]
    exact List.prefix_append _ _
  · rw [length_confirmations hside (hlo f hf), length_wireFrames hside, ← hlo f hf]
    exact hside.ok.marks.lo_le_dma

theorem confirmed_in_order_one :
    ∃ s tr, txSide.run txStart sendTwo = some (s, tr) ∧
      ∀ f < ethMaxTxFifoSupported, confirmations f tr <+: grantedBuffers f tr ∧
        (confirmations f tr).length ≤ (wireFrames f tr).length :=
  confirmed_in_order txBuffers_ok (by decide +kernel)

example : (txSide.run txStart sendTwo).map (fun r => confirmations 0 r.2) = some [0, 1] := by decide +kernel

theorem irq_sent (hb : BuffersOk buffer) (h : SideOk buffer low high Lossless s tr) (hf : f < ethMaxTxFifoSupported)
    (hcalm : Calm s (.txIrq f)) :
    ∃ s₁ es, txSide.step s (.txIrq f) = some (s₁, es) ∧
      (confirmations f (tr ++ es)).length = (wireFrames f (tr ++ es)).length := by
  obtain ⟨m, hm, hlo⟩ := h.fifos
  have hside := hm f hf
  have hsafe := safe_of_calm hside (hlo f hf) (hcalm.2 f rfl)
  obtain ⟨c, es, hreport, hrep, -⟩ := irq_ok hb hf hside hsafe
  have hwire := (nil_of_confirmed hrep.events f).2.2
  have hle : (m f).head ≤ (m f).dma := hlo f hf ▸ hside.ok.marks.lo_le_dma
  have hhead : (m f).report.head = (m f).dma := Nat.max_eq_right hle
  refine ⟨{ s with ctrl := c }, es, step_txIrq hreport, ?_⟩
  rw [confirmations_append, List.length_append, length_confirmations hside (hlo f hf), hrep.confirmed,
    List.length_map, List.length_range', wireFrames_append, hwire, List.append_nil, length_wireFrames hside, hhead,
    Nat.add_sub_of_le hle]

/-- **An interrupt confirms all that has left.** -/
theorem irq_confirms_sent (hb : BuffersOk buffer)
    (hall : txSide.AllSteps Calm (TxSide.init buffer low high memory) is) :
    txSide.EveryStep (fun tr _ i _ es => ∀ f < ethMaxTxFifoSupported, i = .txIrq f →
      (confirmations f (tr ++ es)).length = (wireFrames f (tr ++ es)).length) []
      (TxSide.init buffer low high memory) is := by
  refine calm_everyStep hb (fun s tr i s₁ es h hc hstep f hf hi => ?_) hall
  subst hi
  obtain ⟨s', es', hstep', heq⟩ := irq_sent hb h hf hc
  obtain ⟨rfl, rfl⟩ := Prod.mk.inj (Option.some.inj (hstep'.symm.trans hstep))
  exact heq

theorem irq_confirms_sent_one :
    txSide.EveryStep (fun tr _ i _ es => ∀ f < ethMaxTxFifoSupported, i = .txIrq f →
      (confirmations f (tr ++ es)).length = (wireFrames f (tr ++ es)).length) []
      txStart sendTwo :=
  irq_confirms_sent txBuffers_ok (by decide +kernel)

/-! ## Grants -/

/-- **A buffer is granted exactly when one is left**, and a refusal changes nothing. -/
theorem granted_iff_room (hb : BuffersOk buffer)
    (hall : txSide.AllSteps Calm (TxSide.init buffer low high memory) is) :
    txSide.EveryStep (fun tr s i s₁ es => ∀ priority container, i = .offer priority container → s.transmit = none →
      if (grantedBuffers (vlanPcpToFifoIdx priority) tr).length <
          (confirmations (vlanPcpToFifoIdx priority) tr).length + txRingSize (vlanPcpToFifoIdx priority) then
        copies (vlanPcpToFifoIdx priority) es = [container]
      else s₁ = s ∧ es = [.provided priority txBufferRequest (.refused .busy txBufferRequest)]) []
      (TxSide.init buffer low high memory) is := by
  refine calm_everyStep hb (fun s tr i s₁ es h _ hstep priority container hi hidle => ?_) hall
  subst hi
  have hf := vlanPcpToFifoIdx_lt priority
  obtain ⟨m, hm, hlo⟩ := h.fifos
  have hside := hm _ hf
  have hroom := hside.ok.marks.room
  have hgranted := length_grantedBuffers hside
  rw [pc_of_idle hidle] at hroom hgranted
  have hstep' : txSide.step s (.offer priority container) = some (offerContainer s priority container) := by
    simp only [txSide, hidle]
  have hoffer : offerContainer s priority container = (s₁, es) := Option.some.inj (hstep'.symm.trans hstep)
  rw [hgranted, length_confirmations hside (hlo _ hf), ← hlo _ hf]
  rcases Nat.lt_or_eq_of_le hroom with hroom | hfull
  · rw [offer_of_room hb h.side hside hidle hroom] at hoffer
    obtain ⟨-, rfl⟩ := Prod.mk.inj hoffer
    rw [if_pos hroom]
    simp [copies]
  · rw [offer_of_full h.side hside hidle hfull] at hoffer
    obtain ⟨rfl, rfl⟩ := Prod.mk.inj hoffer
    rw [if_neg (Nat.not_lt.2 (Nat.le_of_eq hfull.symm))]
    exact ⟨rfl, rfl⟩

theorem granted_iff_room_one :
    txSide.EveryStep (fun tr s i s₁ es => ∀ priority container, i = .offer priority container → s.transmit = none →
      if (grantedBuffers (vlanPcpToFifoIdx priority) tr).length <
          (confirmations (vlanPcpToFifoIdx priority) tr).length + txRingSize (vlanPcpToFifoIdx priority) then
        copies (vlanPcpToFifoIdx priority) es = [container]
      else s₁ = s ∧ es = [.provided priority txBufferRequest (.refused .busy txBufferRequest)]) []
      txStart fillRing :=
  granted_iff_room txBuffers_ok (by decide +kernel)

example : (txSide.run txStart fillRing).map (fun r =>
    ((copies 1 r.2).length, r.2.count (.provided 1 txBufferRequest (.refused .busy txBufferRequest)))) =
      some (17, 1) := by decide +kernel

end Delivery

end CanTsn
