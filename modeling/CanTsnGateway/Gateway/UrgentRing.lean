import CanTsnGateway.Gateway.Filling
import CanTsnGateway.Model.EthDriver

/-!
# The ring of a container

Two maps lead from a container to a transmit ring: `TC_to_FIFO` from the class to the
priority of the driver call, `VlanPcpToFifoIdx` from the priority to the ring.  The class
is the smallest one among the records of the container, and what comes out is
`TC_to_FIFO` of it (`container_on_urgent_ring`).
-/

namespace CanTsn

open Packer StepMachine

/-- A buffer request with this priority works on this ring and on no other. -/
structure UsesRing (priority ring : UInt8) : Prop where
  inTable : priority < 8
  selects : vlanPcpToFifoIdx priority = ring
  others : ∀ d lenByte f, f ≠ ring → (ethProvideTxBuffer d priority lenByte).2.ring f = d.ring f
  granted : ∀ d d₁ lenByte bufIdx ethPayload n,
    ethProvideTxBuffer d priority lenByte = (.granted bufIdx ethPayload n, d₁) →
      (d₁.txBufferIdxMap bufIdx).fifoIdx = ring

/-- A container is offered while `currentTC` is the most urgent class among its records,
on the ring of that class. -/
def OfferedByClass (currentTC : UInt8) (past : List GwEvent) (e : GwEvent) : Prop :=
  ∀ fifoIdx lenByte res, e = .provided fifoIdx lenByte res →
    IsMinTC currentTC (openRecords past) ∧ fifoIdx = tcToFifo currentTC ∧
      UsesRing fifoIdx (tcToFifo currentTC)

/-! ## The two maps -/

theorem tcToFifo_lt (trafficClass : UInt8) : tcToFifo trafficClass < 3 := by
  unfold tcToFifo
  split
  · decide
  · split <;> decide

/-- The shipped map is the identity on the three FIFOs. -/
theorem vlanPcpToFifoIdx_of_lt : ∀ fifoIdx : UInt8, fifoIdx < 3 → vlanPcpToFifoIdx fifoIdx = fifoIdx := by
  intro fifoIdx h
  have hlt : fifoIdx.toNat < 3 := UInt8.lt_iff_toNat_lt.1 h
  have hcases : fifoIdx = 0 ∨ fifoIdx = 1 ∨ fifoIdx = 2 := by
    simp only [← UInt8.toNat_inj]
    show fifoIdx.toNat = 0 ∨ fifoIdx.toNat = 1 ∨ fifoIdx.toNat = 2
    omega
  rcases hcases with rfl | rfl | rfl <;> rfl

theorem ring_provide_of_ne (d : EthTx) (priority : UInt8) (lenByte : UInt16) {f : UInt8}
    (hf : f ≠ vlanPcpToFifoIdx priority) : (ethProvideTxBuffer d priority lenByte).2.ring f = d.ring f := by
  unfold ethProvideTxBuffer
  split
  · rfl
  · split
    · rfl
    · simp only
      split
      · exact Function.update_of_ne hf _ _
      · rfl
      · rfl

/-- A granted buffer is entered with the ring it comes from. -/
theorem fifoIdx_granted {d d₁ : EthTx} {priority : UInt8} {lenByte n : UInt16} {bufIdx ethPayload : UInt32}
    (h : ethProvideTxBuffer d priority lenByte = (.granted bufIdx ethPayload n, d₁)) :
    (d₁.txBufferIdxMap bufIdx).fifoIdx = vlanPcpToFifoIdx priority := by
  unfold ethProvideTxBuffer at h
  split at h
  · cases h
  · split at h
    · cases h
    · simp only at h
      split at h
      · obtain ⟨hgrant, rfl⟩ := Prod.mk.inj h
        obtain ⟨rfl, -, -⟩ := BufReq.granted.inj hgrant
        unfold EthTx.setBuffer
        simp only [Function.update_self]
      · cases h
      · cases h

theorem usesRing_tcToFifo (trafficClass : UInt8) :
    UsesRing (tcToFifo trafficClass) (tcToFifo trafficClass) := by
  have hlt := tcToFifo_lt trafficClass
  have hsel := vlanPcpToFifoIdx_of_lt _ hlt
  refine ⟨UInt8.lt_trans hlt (by decide), hsel, fun d lenByte f hf => ?_, fun d d₁ lenByte _ _ _ h => ?_⟩
  · rw [← hsel] at hf
    exact ring_provide_of_ne d _ lenByte hf
  · exact (fifoIdx_granted h).trans hsel

/-! ## Rounds -/

theorem offeredByClass_of_quiet (tc : UInt8) (past : List GwEvent) (e : GwEvent) (h : e.isSend = false) :
    OfferedByClass tc past e := by
  rintro fifoIdx lenByte res rfl
  cases h

/-- The events behind the buffer request are not offers. -/
theorem offeredByClass_sendEvents {past : List GwEvent} {s : GwState} (i : GwInput) (cause : SendCause)
    (hmin : IsMinTC s.currentTC (openRecords past)) :
    AtEvery (OfferedByClass s.currentTC) past (sendEvents s i cause) := by
  refine ⟨?_, atEvery_of_forall_mem fun past e he => ?_⟩
  · rintro _ _ _ ⟨rfl, rfl, rfl⟩
    exact ⟨hmin, rfl, usesRing_tcToFifo s.currentTC⟩
  · rintro fifoIdx lenByte res rfl
    unfold bufferEvents at he
    cases hp : i.provide <;> simp [hp] at he

/-- **A container travels on the ring of its most urgent record.**  In every round after
every run: when a container is offered to the driver, `currentTC` is the smallest class
among the records appended since the last container was closed, and the driver takes the
buffer from ring `TC_to_FIFO` of that class. -/
theorem container_on_urgent_ring (map : List CanIdToPduId) (u : UninitLocals) (is : List GwInput)
    (s : GwState) (tr : List GwEvent) (hrun : (gateway map).run (GwState.start u) is = some (s, tr))
    (i : GwInput) (s₁ : GwState) (es : List GwEvent) (hs : ethPduSendTas map s i = some (s₁, es)) :
    AtEvery (OfferedByClass s₁.currentTC) tr es := by
  obtain ⟨p, h⟩ := history_run hrun
  rcases round_cases h hs with ⟨-, m, -, -, -, -, rfl⟩ | ⟨-, s₂, e₁, hl, rfl, rfl⟩
  · exact ⟨offeredByClass_of_quiet _ _ _ rfl, offeredByClass_of_quiet _ _ _ rfl, trivial⟩
  · rw [atEvery_append, (sendPhase_state s₂ i).2.2.2]
    refine ⟨atEvery_of_forall_mem fun past e he => offeredByClass_of_quiet _ past e (hl.quiet e he), ?_⟩
    rcases sendPhase_events s₂ i with ⟨-, hnil⟩ | ⟨cause, hst, hev⟩
    · rw [hnil]
      trivial
    · rw [hev]
      refine offeredByClass_sendEvents i cause ?_
      rw [openRecords_loaded h hl]
      have hsome := shouldTransmit_isSome hl.sim i.gateOpen
      rw [hst] at hsome
      refine hl.sim.tc fun hnil => ?_
      rw [closes, hnil] at hsome
      cases hsome

/-- The second container of the mixed rounds: its records are of classes 7 and 3, while the
one before it had a record of class 0. -/
theorem container_on_urgent_ring_mixed :
    ∃ s tr i s₁ es, mixedRounds = mixedRounds.take 4 ++ [i] ∧
      (gateway mixedTable.rows).run (GwState.start .zero) (mixedRounds.take 4) = some (s, tr) ∧
      ethPduSendTas mixedTable.rows s i = some (s₁, es) ∧ (∃ e ∈ es, e.isSend = true) ∧ s₁.currentTC = 3 ∧
      AtEvery (OfferedByClass s₁.currentTC) tr es := by
  obtain ⟨s, tr, i, s₁, es, hi, hrun, hs, hsent, htc⟩ : ∃ s tr i s₁ es, mixedRounds = mixedRounds.take 4 ++ [i] ∧
      (gateway mixedTable.rows).run (GwState.start .zero) (mixedRounds.take 4) = some (s, tr) ∧
      ethPduSendTas mixedTable.rows s i = some (s₁, es) ∧ (∃ e ∈ es, e.isSend = true) ∧ s₁.currentTC = 3 :=
    ⟨_, _, _, _, _, rfl, rfl, rfl, by decide, rfl⟩
  exact ⟨s, tr, i, s₁, es, hi, hrun, hs, hsent, htc,
    container_on_urgent_ring mixedTable.rows .zero _ s tr hrun i s₁ es hs⟩

end CanTsn
