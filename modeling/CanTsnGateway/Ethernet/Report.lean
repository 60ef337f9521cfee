import CanTsnGateway.Ethernet.Requests

/-!
# `Eth_ReportTransmission`

The interrupt walks down the list and confirms the frames that the DMA is done with.  It
comes back, stops at the first frame that is not done, and keeps the invariant
(`reportFrom_ok`): the list then starts where the DMA is.
-/

namespace CanTsn

open ByteMemory Ring

/-- The buffers confirmed on a FIFO. -/
def confirmations (f : UInt8) (tr : List TxEvent) : List UInt32 :=
  tr.filterMap fun e => match e with
    | .confirmed fifoIdx bufIdx _ => if fifoIdx = f then some bufIdx else none
    | _ => none

@[simp] theorem confirmations_append (f : UInt8) (tr es : List TxEvent) :
    confirmations f (tr ++ es) = confirmations f tr ++ confirmations f es := List.filterMap_append

/-- The list starts where the DMA is, as far as it has come. -/
def Marks.report (m : Marks) : Marks :=
  { m with lo := if m.lo = m.head then max m.head m.dma else m.lo, head := max m.head m.dma }

theorem Marks.report_of_le {m : Marks} (h : m.dma ≤ m.head) : m.report = m := by
  unfold Marks.report
  rw [Nat.max_eq_left h]
  split
  · next heq =>
    cases m with
    | mk lo head dma tail =>
      simp only at heq
      rw [heq]
  · rfl

theorem Marks.report_confirm {m : Marks} (h : m.head < m.dma) (hlo : m.lo ≤ m.head) :
    m.confirm.report = m.report := by
  have hmax : max (m.head + 1) m.dma = max m.head m.dma := by omega
  unfold Marks.report Marks.confirm
  simp only [hmax]
  by_cases heq : m.lo = m.head
  · simp only [heq, if_true]
  · have hne : m.lo ≠ m.head + 1 := by omega
    simp only [heq, hne, if_false]

/-- The interrupt does not get to a frame whose descriptor is being filled. -/
def Marks.Safe (m : Marks) (pc : Option TransmitPc) : Prop :=
  ∀ p, pc = some p → p.filled = true → p ≠ .moveTailPointer →
    m.tail < m.head ∨ m.head < m.tail ∧ m.dma < m.tail

theorem Marks.Safe.confirm {m : Marks} {pc : Option TransmitPc} (h : m.Safe pc) (hdma : m.head < m.dma) :
    m.confirm.Safe pc := by
  intro p hp hfill hp'
  rcases h p hp hfill hp' with hlt | ⟨-, hlt⟩
  · exact Or.inl (Nat.lt_succ_of_lt hlt)
  · exact Or.inr ⟨by show m.head + 1 < m.tail; omega, hlt⟩

/-! ## One confirmation -/

section Confirm

variable {buffer : UInt8 → UInt32} {f : UInt8} {frames : List (List UInt8)} {v : FifoView} {m : Marks}

/-- A frame that the DMA is done with gets its status. -/
theorem FifoOk.status_done (hb : BuffersOk buffer) (hf : f < ethMaxTxFifoSupported)
    (h : FifoOk buffer f frames v m) (hdma : m.head < m.dma) :
    gmacGetTransmitStatus v.ring (v.entry m.head).pu8BufferData =
      (true, v.ring.write (m.head % txRingSize f) (DescsOk.released (v.ring.of f m.head))) := by
  have hsent := Nat.lt_of_lt_of_le hdma h.marks.dma_le
  have hgr := Nat.lt_of_lt_of_le hsent (m.sent_le_granted _)
  have hroom := h.marks.room
  have hown := h.descs.own m.head h.marks.lo_le_head (by omega)
  rw [h.entries.entry m.head (Nat.le_refl _) hgr]
  exact DescsOk.status_of_done hb hf h.descs (h.descs.sent m.head (Nat.le_refl _) hsent).2 fun ho => by
    have := hown.1 ho
    omega

/-- A frame that the DMA has, or that is not sent yet, gets none. -/
theorem FifoOk.status_waiting (hb : BuffersOk buffer) (hf : f < ethMaxTxFifoSupported)
    (h : FifoOk buffer f frames v m) (hlist : m.head < m.linked v.pc) (hdma : m.dma ≤ m.head)
    (hsafe : m.Safe v.pc) :
    gmacGetTransmitStatus v.ring (v.entry m.head).pu8BufferData = (false, v.ring) := by
  have hgr : m.head < m.granted v.pc := Nat.lt_of_lt_of_le hlist (m.linked_le_granted _)
  have hroom := h.marks.room
  have hown := h.descs.own m.head h.marks.lo_le_head (by omega)
  rw [h.entries.entry m.head (Nat.le_refl _) hgr]
  rcases Nat.lt_or_ge m.head (m.sent v.pc) with hsent | hsent
  · exact DescsOk.status_of_own hb hf h.descs (h.descs.sent m.head (Nat.le_refl _) hsent).2
      (hown.2 ⟨hdma, hsent⟩)
  · obtain ⟨heq, p, hp, hp'⟩ := Marks.held_of_between hsent hgr
    have hinfo := (h.descs.held p hp hp').2
    cases hfill : p.filled with
    | true =>
      have := hsafe p hp hfill hp'
      omega
    | false =>
      rw [hfill] at hinfo
      rw [heq]
      exact DescsOk.status_of_zero hb hf h.descs hinfo

/-- The FIFO after a confirmation. -/
def FifoView.confirmed (v : FifoView) (f : UInt8) (k : Nat) : FifoView :=
  { v with
    ring := (gmacGetTransmitStatus v.ring (v.entry k).pu8BufferData).2
    requests := { v.requests with pQueueHead := v.next k }
    entry := fun j => if txEntry f j = txEntry f k then { v.entry k with pu8BufferData := 0 } else v.entry j }

theorem FifoOk.confirm (hb : BuffersOk buffer) (hf : f < ethMaxTxFifoSupported)
    (h : FifoOk buffer f frames v m) (hdma : m.head < m.dma) :
    FifoOk buffer f frames (v.confirmed f m.head) m.confirm := by
  have hsent : m.head < m.sent v.pc := Nat.lt_of_lt_of_le hdma h.marks.dma_le
  have hroom := h.marks.room
  have hlo := h.marks.lo_le_head
  have hring := h.descs.confirm h.marks hsent hdma
  unfold FifoView.confirmed
  rw [h.status_done hb hf hdma]
  refine ⟨h.marks.confirm hsent hdma, hring, h.requests.confirm hsent, ⟨fun k hk hk' => ?_, fun k hk hk' => ?_⟩,
    h.data.confirm, h.locals, ?_, h.dma, h.short⟩
  · rw [m.granted_confirm] at hk'
    have hk : m.head + 1 ≤ k := hk
    have hk' : k < m.granted v.pc := hk'
    have hne : txEntry f k ≠ txEntry f m.head := fun heq => by
      have := (txEntry_eq_iff hf m.lo ⟨by omega, by omega⟩ ⟨hlo, by omega⟩).1 heq
      omega
    exact (if_neg hne).trans (h.entries.entry k (by omega) hk')
  · rw [m.granted_confirm] at hk'
    exact h.entries.confirm k (Nat.le_of_succ_le hk) hk'
  · rw [m.granted_confirm]
    exact h.granted

end Confirm

/-! ## The loop -/

section Report

variable {buffer : UInt8 → UInt32} {f : UInt8} {frames : List (List UInt8)}

theorem view_confirmRequest (s : TxSide) (k : Nat) :
    fifoView buffer { s with ctrl := (confirmRequest s.ctrl f (txEntry f k)).1 } f =
      (fifoView buffer s f).confirmed f k := by
  unfold confirmRequest fifoView EthCtrl.setRequests EthCtrl.setRing EthTx.setRing EthTx.setBuffer
    FifoView.confirmed
  simp only [Function.update_self, Function.update_apply]

theorem view_confirmRequest_of_ne {g : UInt8} (hf : f < ethMaxTxFifoSupported) (hg : g < ethMaxTxFifoSupported)
    (hgf : g ≠ f) (s : TxSide) (k : Nat) :
    fifoView buffer { s with ctrl := (confirmRequest s.ctrl f (txEntry f k)).1 } g = fifoView buffer s g := by
  have hentry : ∀ j, txEntry g j ≠ txEntry f k := fun j h => hgf (txEntry_inj hg hf h).1
  unfold confirmRequest fifoView EthCtrl.setRequests EthCtrl.setRing EthTx.setRing EthTx.setBuffer
  simp only [Function.update_of_ne hgf, Function.update_of_ne (hentry _)]

/-- What the interrupt leaves behind. -/
structure Reported (buffer : UInt8 → UInt32) (f : UInt8) (s : TxSide) (m : Marks) (c : EthCtrl) (es : List TxEvent) :
    Prop where
  others : ∀ g < ethMaxTxFifoSupported, g ≠ f → fifoView buffer { s with ctrl := c } g = fifoView buffer s g
  confirmed : confirmations f es = (List.range' m.head (m.report.head - m.head)).map (txEntry f)
  events : ∀ e ∈ es, ∃ bufIdx result, e = .confirmed f bufIdx result
  up : c.tx.initialised = s.ctrl.tx.initialised ∧ c.tx.active = s.ctrl.tx.active
  mac : c.macAddress0Low = s.ctrl.macAddress0Low ∧ c.macAddress0High = s.ctrl.macAddress0High
  memory : c.memory = s.ctrl.memory

theorem confirmRequest_events {s : TxSide} {m : Marks} (h : FifoOk buffer f frames (fifoView buffer s f) m)
    (hgr : m.head < m.granted (fifoView buffer s f).pc) :
    ∃ result, (confirmRequest s.ctrl f (txEntry f m.head)).2 = [.confirmed f (txEntry f m.head) result] := by
  have hconfirm : s.ctrl.bTxConfirmation (txEntry f m.head) = true :=
    h.entries.confirm m.head (Nat.le_refl _) hgr
  exact ⟨_, if_pos hconfirm⟩

/-- One pass: the request is confirmed, and the list starts behind it. -/
theorem reportFrom_succ {c c₁ : EthCtrl} {iter : UInt32} {fuel : Nat} {tr : List TxEvent}
    (hstatus : (gmacGetTransmitStatus (c.tx.ring f) (c.tx.txBufferIdxMap iter).pu8BufferData).1 = true)
    (hrun : reportFrom f fuel (confirmRequest c f iter).1 ((confirmRequest c f iter).1.transmissionRequests f).pQueueHead =
      some (c₁, tr)) :
    reportFrom f (fuel + 1) c (some iter) = some (c₁, (confirmRequest c f iter).2 ++ tr) := by
  have hiter : ((confirmRequest c f iter).1.transmissionRequests f).pQueueHead =
      (confirmRequest c f iter).1.pNextBuffer iter := by
    unfold confirmRequest EthCtrl.setRequests
    simp only [Function.update_self]
  rw [hiter] at hrun
  unfold reportFrom
  rw [if_pos hstatus]
  simp only [hrun]

theorem confirmations_singleton (f : UInt8) (bufIdx : UInt32) (result : Bool) :
    confirmations f [.confirmed f bufIdx result] = [bufIdx] := by simp [confirmations]

theorem reportFrom_ok (hb : BuffersOk buffer) (hf : f < ethMaxTxFifoSupported) (fuel : Nat) (s : TxSide)
    (m : Marks) (h : FifoOk buffer f frames (fifoView buffer s f) m) (hsafe : m.Safe (fifoView buffer s f).pc)
    (hfuel : m.linked (fifoView buffer s f).pc - m.head < fuel) :
    ∃ c es, reportFrom f fuel s.ctrl (s.ctrl.transmissionRequests f).pQueueHead = some (c, es) ∧
      FifoOk buffer f frames (fifoView buffer { s with ctrl := c } f) m.report ∧ Reported buffer f s m c es := by
  induction fuel generalizing s m with
  | zero => exact absurd hfuel (Nat.not_lt_zero _)
  | succ fuel ih =>
    have hhead : (s.ctrl.transmissionRequests f).pQueueHead = _ := h.requests.head
    rw [hhead]
    split
    · next hlist =>
      by_cases hdma : m.head < m.dma
      · -- the frame is done with
        have hstatus : (gmacGetTransmitStatus (s.ctrl.tx.ring f)
            (s.ctrl.tx.txBufferIdxMap (txEntry f m.head)).pu8BufferData).1 = true :=
          congrArg Prod.fst (h.status_done hb hf hdma)
        have hsent : m.head < m.sent (fifoView buffer s f).pc := Nat.lt_of_lt_of_le hdma h.marks.dma_le
        have hgr := Nat.lt_of_lt_of_le hsent (m.sent_le_granted _)
        have hok := h.confirm hb hf hdma
        rw [← view_confirmRequest] at hok
        obtain ⟨c, es, hrun, hok', hrep⟩ := ih { s with ctrl := (confirmRequest s.ctrl f (txEntry f m.head)).1 }
          m.confirm hok (hsafe.confirm hdma) (by
            show m.confirm.linked (fifoView buffer s f).pc - (m.head + 1) < fuel
            rw [m.linked_confirm]
            omega)
        have hreport := Marks.report_confirm hdma h.marks.lo_le_head
        obtain ⟨result, hevent⟩ := confirmRequest_events h hgr
        refine ⟨c, _, reportFrom_succ hstatus hrun, ?_, fun g hg hgf => ?_, ?_, ?_, hrep.up, hrep.mac, hrep.memory⟩
        · rw [← hreport]; exact hok'
        · exact (hrep.others g hg hgf).trans (view_confirmRequest_of_ne hf hg hgf s m.head)
        · have hlen : m.report.head - m.head = (m.report.head - (m.head + 1)) + 1 := by
            show max m.head m.dma - m.head = max m.head m.dma - (m.head + 1) + 1
            omega
          rw [confirmations_append, hrep.confirmed, hreport, hevent, confirmations_singleton, hlen, List.range'_succ,
            List.map_cons]
          rfl
        · intro e he
          rcases List.mem_append.1 he with he | he
          · rw [hevent] at he
            exact ⟨_, result, List.mem_singleton.1 he⟩
          · exact hrep.events e he
      · have hstatus : gmacGetTransmitStatus (s.ctrl.tx.ring f)
            (s.ctrl.tx.txBufferIdxMap (txEntry f m.head)).pu8BufferData = (false, _) :=
          h.status_waiting hb hf hlist (Nat.not_lt.1 hdma) hsafe
        have hreport := Marks.report_of_le (Nat.not_lt.1 hdma)
        unfold reportFrom
        rw [hstatus, if_neg Bool.false_ne_true]
        refine ⟨s.ctrl, [], rfl, ?_, fun _ _ _ => rfl, ?_, fun e he => (by cases he), ⟨rfl, rfl⟩, ⟨rfl, rfl⟩, rfl⟩
        · rw [hreport]; exact h
        · rw [hreport, Nat.sub_self]; rfl
    · next hend =>
      have hdma : m.dma ≤ m.head := by
        have := h.marks.dma_le
        have := m.sent_le_linked (fifoView buffer s f).pc
        omega
      have hreport := Marks.report_of_le hdma
      refine ⟨s.ctrl, [], rfl, ?_, fun _ _ _ => rfl, ?_, fun e he => (by cases he), ⟨rfl, rfl⟩, ⟨rfl, rfl⟩, rfl⟩
      · rw [hreport]; exact h
      · rw [hreport, Nat.sub_self]; rfl

end Report

end CanTsn
