import CanTsnGateway.Ethernet.Delivery

/-!
# Untimely interrupts

Three statements of `Eth_Transmit` do not bear an interrupt that finds all of the ring
sent.  At `pQueueTail->pNextBuffer = …` the list is empty by the time it is linked to: the
request is lost, and with its descriptor locked for good the ring grants less than one more
lap (`lost_request`).  Between the filling of `Info0` and OWN the frame counts as sent: it
is confirmed before it leaves, and that happens only then (`early_confirmation_iff`).
-/

namespace CanTsn

open ByteMemory StepMachine

section Races

variable {buffer : UInt8 → UInt32} {low high : UInt32} {memory : Memory} {is : List TxInput} {s : TxSide}
  {tr : List TxEvent} {f : UInt8} {m : Marks}

/-! ## A lost request -/

/-- The list was emptied. -/
theorem lost_at_linkTail (hb : BuffersOk buffer) (hf : f < ethMaxTxFifoSupported)
    (h : FifoSide buffer low high f (fifoView buffer s f) tr m) (hpc : (fifoView buffer s f).pc = some .linkTail)
    (hsent : ¬ s.Sending f) :
    ∃ c es, ethReportTransmission s.ctrl f = some (c, es) ∧ copies f es = [] ∧
      ∃ m', FifoSide buffer low high f (fifoView buffer { s with ctrl := c } f) (tr ++ es) m' ∧
        m'.lo ≤ m.tail ∧ m'.lo < m'.head := by
  have hsafe : m.Safe (fifoView buffer s f).pc := fun p hp hfill _ => by
    rw [hpc] at hp
    obtain rfl := Option.some.inj hp
    cases hfill
  have hdma : m.tail ≤ m.dma := by
    have := h.ok.sending_iff.not.1 hsent
    rw [hpc] at this
    exact Nat.not_lt.1 this
  obtain ⟨c, es, hrun, hrep, m', h', -, hhead, -⟩ := irq_ok hb hf h hsafe
  obtain ⟨hcopies, -, hwires⟩ := nil_of_confirmed hrep.events f
  have hpc' : (fifoView buffer { s with ctrl := c } f).pc = some .linkTail := hpc
  -- the marks after the interrupt, as the trace counts them
  have hdma' : m'.dma = m.dma := by
    rw [← length_wireFrames h, ← length_wireFrames h', wireFrames_append, hwires, List.append_nil]
  have htail' : m'.tail = m.tail := by
    have hgr := length_copies h
    have hgr' := length_copies h'
    rw [copies_append, hcopies, List.append_nil, hgr, hpc, hpc'] at hgr'
    exact (Nat.succ.inj hgr').symm
  have hne : m'.head ≠ m'.tail := by
    have hfits := h'.fits
    rw [hpc'] at hfits
    exact hfits.2
  have hlo' := h'.ok.marks.lo_le_dma
  have hdma_le : m.dma ≤ m.tail := by
    have := h.ok.marks.dma_le
    rwa [hpc] at this
  have hreport : m.tail ≤ m.report.head := Nat.le_trans hdma (Nat.le_max_right m.head m.dma)
  exact ⟨c, es, hrun, hcopies, m', h', by omega, by omega⟩

/-- **A lost request.**  An interrupt that comes before `pQueueTail->pNextBuffer = …`, with
nothing of the ring left to send, costs the ring a descriptor: whatever happens from then on,
it grants less than one lap. -/
theorem lost_request (hb : BuffersOk buffer)
    (hall : txSide.AllSteps Unfilled (TxSide.init buffer low high memory) is)
    (hrun : txSide.run (TxSide.init buffer low high memory) is = some (s, tr)) (hf : f < ethMaxTxFifoSupported)
    (hat : s.At f [.linkTail]) (hsent : ¬ s.Sending f) :
    ∃ s₁ es, txSide.step s (.txIrq f) = some (s₁, es) ∧ ∀ js, txSide.AllSteps Unfilled s₁ js →
      ∃ s₂ tr₂, txSide.run s₁ js = some (s₂, tr₂) ∧ (copies f tr₂).length < txRingSize f := by
  have h := unfilled_reached hb hall hrun
  obtain ⟨m, hm, -⟩ := h.fifos
  have hpc : (fifoView buffer s f).pc = some .linkTail := by
    obtain ⟨p, hp, hphase⟩ := hat
    rw [← List.mem_singleton.1 hp]
    exact pc_of_phase buffer hphase
  obtain ⟨c, es, hreport, hcopies, m', h', hle, hlost⟩ := lost_at_linkTail hb hf (hm f hf) hpc hsent
  have hstep := step_txIrq hreport
  have hunfilled : Unfilled s (.txIrq f) := by
    refine ⟨trivial, fun g hg hat' => ?_⟩
    obtain rfl := TxInput.txIrq.inj hg
    obtain ⟨p, hp, hphase⟩ := hat'
    have hp' := (pc_of_phase buffer hphase).symm.trans hpc
    obtain rfl := Option.some.inj hp'
    simp at hp
  -- the descriptor of frame `lo` stays locked
  have hK : SideOk buffer low high (fun m => (m f).lo = m'.lo ∧ m'.lo < (m f).head) { s with ctrl := c } (tr ++ es) := by
    obtain ⟨s₁, es₁, hstep', h₁, -⟩ := unfilled_step hb h hunfilled fun _ _ _ _ => trivial
    obtain ⟨rfl, rfl⟩ := Prod.mk.inj (Option.some.inj (hstep'.symm.trans hstep))
    obtain ⟨m₁, hm₁, -⟩ := h₁.fifos
    refine ⟨h₁.side, ⟨Function.update m₁ f m', fun g hg => ?_, ?_⟩, h₁.returns⟩
    · by_cases hgf : g = f
      · subst hgf
        rw [Function.update_self]
        exact h'
      · rw [Function.update_of_ne hgf]
        exact hm₁ g hg
    · rw [Function.update_self]
      exact ⟨rfl, hlost⟩
  refine ⟨_, es, hstep, fun js hjs => ?_⟩
  obtain ⟨s₂, tr₂, hrun₂, h₂⟩ := txSide.run_exists _ (fun s tr i h hc => by
    obtain ⟨s₁, es₁, hstep₁, h₁, -⟩ := unfilled_step hb h hc fun m m₁ hKm hfollows => by
      obtain ⟨hlo, hlt⟩ := hfollows f (by omega)
      omega
    exact ⟨s₁, es₁, hstep₁, h₁⟩) hK hjs
  refine ⟨s₂, tr₂, hrun₂, ?_⟩
  obtain ⟨m₂, hm₂, hlo₂, -⟩ := h₂.fifos
  have hroom := (hm₂ f hf).ok.marks.room
  have hcount := length_copies (hm₂ f hf)
  have hbefore := length_copies (hm f hf)
  have hgranted : (m f).granted (some .linkTail) = (m f).tail + 1 := rfl
  rw [hpc, hgranted] at hbefore
  rw [copies_append, copies_append, hcopies, List.append_nil, List.length_append] at hcount
  omega

/-- The frame before it has left, unconfirmed. -/
def sendSecond : List TxInput := sendAll 0 [[1, 0]] ++ [.dma 0 0 0, .offer 0 [2, 0], .advance]

theorem lost_request_second :
    ∃ s tr, txSide.run txStart sendSecond = some (s, tr) ∧
      ∃ s₁ es, txSide.step s (.txIrq 0) = some (s₁, es) ∧ ∀ js, txSide.AllSteps Unfilled s₁ js →
        ∃ s₂ tr₂, txSide.run s₁ js = some (s₂, tr₂) ∧ (copies 0 tr₂).length < txRingSize 0 := by
  have hall : txSide.AllSteps Unfilled txStart sendSecond := by decide +kernel
  obtain ⟨s, tr, hrun, -⟩ : ∃ s tr, txSide.run txStart sendSecond = some (s, tr) ∧ _ := unfilled_run txBuffers_ok hall
  have hphase : (txSide.run txStart sendSecond).map (fun r => r.1.phase) =
      some (some (0, .linkTail)) := by decide +kernel
  have hsent : (txSide.run txStart sendSecond).map (fun r =>
      (r.1.ctrl.tx.ring 0).ringDesc.all fun b => decide ¬ b.Own) = some true := by decide +kernel
  rw [hrun] at hphase hsent
  refine ⟨s, tr, hrun, lost_request txBuffers_ok hall hrun (by decide) ⟨_, by simp, Option.some.inj hphase⟩ ?_⟩
  rintro ⟨b, hmem, hown⟩
  exact of_decide_eq_true (List.all_eq_true.1 (Option.some.inj hsent) b hmem) hown

/-! ## An early confirmation -/

/-- While a descriptor is being filled its frame already has a status. -/
theorem FifoOk.status_filling {frames : List (List UInt8)} {v : FifoView} {p : TransmitPc} (hb : BuffersOk buffer)
    (hf : f < ethMaxTxFifoSupported) (h : FifoOk buffer f frames v m) (hpc : v.pc = some p)
    (hp : p = .fillLength ∨ p = .setOwn) (hhead : m.head = m.tail) :
    (gmacGetTransmitStatus v.ring (v.entry m.head).pu8BufferData).1 = true := by
  have hne : p ≠ .moveTailPointer := by rcases hp with rfl | rfl <;> decide
  have hfill : p.filled = true := by rcases hp with rfl | rfl <;> rfl
  have hd := h.descs
  have hm := h.marks
  have hentry := h.entries.entry m.head (Nat.le_refl _)
  rw [hpc] at hd hm hentry
  have hinfo := (hd.held p rfl hne).2
  rw [hfill, if_pos rfl] at hinfo
  rw [hentry (by show m.head < m.tail + 1; omega), hhead, hd.status_of_done hb hf hinfo (hd.not_own_tail hm hne)]

/-- The loop goes one frame too far. -/
theorem reportFrom_filling {frames : List (List UInt8)} {p : TransmitPc} (hb : BuffersOk buffer)
    (hf : f < ethMaxTxFifoSupported) (fuel : Nat) (s : TxSide) (m : Marks)
    (h : FifoOk buffer f frames (fifoView buffer s f) m) (hpc : (fifoView buffer s f).pc = some p)
    (hp : p = .fillLength ∨ p = .setOwn) (hdma : m.dma = m.tail) (hhead : m.head ≤ m.tail)
    (hfuel : m.tail - m.head < fuel) :
    ∃ c es, reportFrom f fuel s.ctrl (s.ctrl.transmissionRequests f).pQueueHead = some (c, es) ∧
      confirmations f es = (List.range' m.head (m.tail + 1 - m.head)).map (txEntry f) ∧
      ∀ e ∈ es, ∃ bufIdx result, e = .confirmed f bufIdx result := by
  have hlinked : p.linked = true := by rcases hp with rfl | rfl <;> rfl
  induction fuel generalizing s m with
  | zero => exact absurd hfuel (Nat.not_lt_zero _)
  | succ fuel ih =>
    have hlist : m.linked (fifoView buffer s f).pc = m.tail + 1 := by
      rw [hpc]
      exact if_pos hlinked
    have hgranted : m.granted (fifoView buffer s f).pc = m.tail + 1 := by
      rw [hpc]
      rfl
    have hiter : (s.ctrl.transmissionRequests f).pQueueHead = some (txEntry f m.head) := by
      have hq : (s.ctrl.transmissionRequests f).pQueueHead = _ := h.requests.head
      rw [hq, hlist, if_pos (by omega)]
    obtain ⟨result, hevent⟩ := confirmRequest_events h (by omega)
    rw [hiter]
    rcases Nat.lt_or_eq_of_le hhead with hlt | heq
    · have hstatus : (gmacGetTransmitStatus (s.ctrl.tx.ring f)
          (s.ctrl.tx.txBufferIdxMap (txEntry f m.head)).pu8BufferData).1 = true :=
        congrArg Prod.fst (h.status_done hb hf (by omega))
      have hok := h.confirm hb hf (by omega)
      rw [← view_confirmRequest] at hok
      have hfuel' : m.tail - (m.head + 1) < fuel := by omega
      obtain ⟨c, es, hrun, hconf, hes⟩ := ih { s with ctrl := (confirmRequest s.ctrl f (txEntry f m.head)).1 }
        m.confirm hok hpc hdma hlt hfuel'
      refine ⟨c, _, reportFrom_succ hstatus hrun, ?_, fun e he => ?_⟩
      · have hlen : m.tail + 1 - m.head = (m.tail + 1 - (m.head + 1)) + 1 := by omega
        rw [confirmations_append, hconf, hevent, confirmations_singleton, hlen, List.range'_succ, List.map_cons]
        rfl
      · rcases List.mem_append.1 he with he | he
        · rw [hevent] at he
          exact ⟨_, result, List.mem_singleton.1 he⟩
        · exact hes e he
    · -- the frame being filled is the last of the list
      have hstatus : (gmacGetTransmitStatus (s.ctrl.tx.ring f)
          (s.ctrl.tx.txBufferIdxMap (txEntry f m.head)).pu8BufferData).1 = true :=
        h.status_filling hb hf hpc hp heq
      have hlast : ((confirmRequest s.ctrl f (txEntry f m.head)).1.transmissionRequests f).pQueueHead = none := by
        have hterm : Marks.Terminated (fifoView buffer s f).pc := by
          rw [hpc]
          rcases hp with rfl | rfl <;> trivial
        have hnext : s.ctrl.pNextBuffer (txEntry f m.head) = none :=
          h.requests.last m.head (Nat.le_refl _) (by omega) hterm
        unfold confirmRequest EthCtrl.setRequests
        simp only [Function.update_self]
        exact hnext
      refine ⟨_, _, reportFrom_succ hstatus (by rw [hlast]; unfold reportFrom; rfl), ?_, fun e he => ?_⟩
      · have hlen : m.tail + 1 - m.head = 1 := by omega
        rw [List.append_nil, hevent, confirmations_singleton, hlen]
        rfl
      · rw [List.append_nil, hevent] at he
        exact ⟨_, result, List.mem_singleton.1 he⟩

/-- **An early confirmation.**  An interrupt that comes while a descriptor is being filled
confirms no more than has left exactly when the DMA still has some of the ring to send. -/
theorem early_confirmation_iff (hb : BuffersOk buffer)
    (hall : txSide.AllSteps Calm (TxSide.init buffer low high memory) is)
    (hrun : txSide.run (TxSide.init buffer low high memory) is = some (s, tr)) (hf : f < ethMaxTxFifoSupported)
    (hat : s.At f [.fillLength, .setOwn]) :
    ∃ s₁ es, txSide.step s (.txIrq f) = some (s₁, es) ∧
      ((confirmations f (tr ++ es)).length ≤ (wireFrames f (tr ++ es)).length ↔ s.Sending f) := by
  by_cases hsending : s.Sending f
  · obtain ⟨s₁, es, hstep, heq⟩ := irq_sent hb (calm_reached hb hall hrun) hf ⟨trivial, fun g hg _ => by
      obtain rfl := TxInput.txIrq.inj hg
      exact hsending⟩
    exact ⟨s₁, es, hstep, iff_of_true (Nat.le_of_eq heq) hsending⟩
  · obtain ⟨m, hm, hlo⟩ := (calm_reached hb hall hrun).fifos
    have hside := hm f hf
    obtain ⟨p, hp, hphase⟩ := hat
    have hpc := pc_of_phase buffer hphase
    have hp' : p = .fillLength ∨ p = .setOwn := by simpa using hp
    have hne : p ≠ .moveTailPointer := by rcases hp' with rfl | rfl <;> decide
    have hsent : (m f).sent (fifoView buffer s f).pc = (m f).tail := by rw [hpc, (m f).sent_of_ne hne]
    have hdma : (m f).dma = (m f).tail := by
      have hle := hside.ok.marks.dma_le
      have hge := hside.ok.sending_iff.not.1 hsending
      omega
    have hhead : (m f).head ≤ (m f).tail := by
      rw [← hlo f hf, ← hdma]
      exact hside.ok.marks.lo_le_dma
    have hfuel : (m f).tail - (m f).head < txBufferCount.toNat + 1 := by
      have h64 : txBufferCount.toNat = 64 := rfl
      have hroom := hside.ok.marks.room
      have hgranted : (m f).granted (fifoView buffer s f).pc = (m f).tail + 1 := by
        rw [hpc]
        rfl
      have := txRingSize_le f
      have := hlo f hf
      omega
    obtain ⟨c, es, hreport, hconf, hes⟩ := reportFrom_filling hb hf _ s (m f) hside.ok hpc hp' hdma hhead hfuel
    have hwires := (nil_of_confirmed hes f).2.2
    refine ⟨{ s with ctrl := c }, es, step_txIrq ((if_pos hf).trans hreport), iff_of_false (fun hle => ?_) hsending⟩
    rw [confirmations_append, List.length_append, length_confirmations hside (hlo f hf), hconf, List.length_map,
      List.length_range', wireFrames_append, hwires, List.append_nil, length_wireFrames hside] at hle
    omega

/-- The first frame is being filled. -/
def fillFirst : List TxInput := .offer 0 [1, 0] :: List.replicate 6 .advance

theorem early_confirmation_first :
    ∃ s tr, txSide.run txStart fillFirst = some (s, tr) ∧
      ∃ s₁ es, txSide.step s (.txIrq 0) = some (s₁, es) ∧
        ((confirmations 0 (tr ++ es)).length ≤ (wireFrames 0 (tr ++ es)).length ↔ s.Sending 0) := by
  have hall : txSide.AllSteps Calm txStart fillFirst := by decide +kernel
  obtain ⟨s, tr, hrun, -⟩ : ∃ s tr, txSide.run txStart fillFirst = some (s, tr) ∧ _ := calm_run txBuffers_ok hall
  have hphase : (txSide.run txStart fillFirst).map (fun r => r.1.phase) =
      some (some (0, .fillLength)) := by decide +kernel
  rw [hrun] at hphase
  exact ⟨s, tr, hrun, early_confirmation_iff txBuffers_ok hall hrun (by decide) ⟨_, by simp, Option.some.inj hphase⟩⟩

end Races

end CanTsn
