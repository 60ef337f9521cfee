import CanTsnGateway.Ethernet.Offering
import CanTsnGateway.Ethernet.Report
import CanTsnGateway.Ethernet.Sending

/-!
# Every step keeps the invariant

`FifoSide` joins the invariant of a FIFO with what the trace says about it: its frames are
the containers copied for it, the DMA has sent the first of them, and as long as no request
is lost exactly the frames before the list are confirmed.  There is one lemma for each kind
of input; an input that works on one FIFO leaves the others alone (`FifoSide.frame`).
-/

namespace CanTsn

open ByteMemory Ring

/-! ## What the trace says about a FIFO -/

/-- The containers copied into its buffers. -/
def copies (f : UInt8) (tr : List TxEvent) : List (List UInt8) :=
  tr.filterMap fun e => match e with
    | .copied fifoIdx _ _ _ bytes => if fifoIdx = f then some bytes else none
    | _ => none

/-- The buffers granted to it. -/
def grantedBuffers (f : UInt8) (tr : List TxEvent) : List UInt32 :=
  tr.filterMap fun e => match e with
    | .copied fifoIdx bufIdx _ _ _ => if fifoIdx = f then some bufIdx else none
    | _ => none

/-- The frames sent through its ring. -/
def wireFrames (f : UInt8) (tr : List TxEvent) : List (List UInt8) :=
  tr.filterMap fun e => match e with
    | .wire fifoIdx bytes => if fifoIdx = f then some bytes else none
    | _ => none

@[simp] theorem copies_append (f : UInt8) (tr es : List TxEvent) :
    copies f (tr ++ es) = copies f tr ++ copies f es := List.filterMap_append

@[simp] theorem grantedBuffers_append (f : UInt8) (tr es : List TxEvent) :
    grantedBuffers f (tr ++ es) = grantedBuffers f tr ++ grantedBuffers f es := List.filterMap_append

@[simp] theorem wireFrames_append (f : UInt8) (tr es : List TxEvent) :
    wireFrames f (tr ++ es) = wireFrames f tr ++ wireFrames f es := List.filterMap_append

/-- The frames of a FIFO. -/
def grantedFrames (low high : UInt32) (f : UInt8) (tr : List TxEvent) : List (List UInt8) :=
  (copies f tr).map (ethFrame low high)

structure FifoSide (buffer : UInt8 → UInt32) (low high : UInt32) (f : UInt8) (v : FifoView) (tr : List TxEvent)
    (m : Marks) : Prop where
  ok : FifoOk buffer f (grantedFrames low high f tr) v m
  fits : m.Fits v.pc
  granted : grantedBuffers f tr = (List.range (m.granted v.pc)).map (txEntry f)
  wire : wireFrames f tr = (grantedFrames low high f tr).take m.dma
  confirmed : m.lo = m.head → confirmations f tr = (List.range m.head).map (txEntry f)

/-- What does not belong to a FIFO. -/
structure SideUp (low high : UInt32) (s : TxSide) : Prop where
  up : s.ctrl.tx.initialised = true ∧ s.ctrl.tx.active = true
  mac : s.ctrl.macAddress0Low = low ∧ s.ctrl.macAddress0High = high
  onFifo : ∀ t, s.transmit = some t → t.fifoIdx < ethMaxTxFifoSupported

section Steps

variable {buffer : UInt8 → UInt32} {low high : UInt32} {f : UInt8} {s : TxSide} {v : FifoView}
  {tr es : List TxEvent} {m : Marks}

/-- Events of other FIFOs. -/
theorem FifoSide.frame (h : FifoSide buffer low high f v tr m) (hcopies : copies f es = [])
    (hgranted : grantedBuffers f es = []) (hwire : wireFrames f es = []) (hconf : confirmations f es = []) :
    FifoSide buffer low high f v (tr ++ es) m := by
  have hframes : grantedFrames low high f (tr ++ es) = grantedFrames low high f tr := by
    unfold grantedFrames
    rw [copies_append, hcopies, List.append_nil]
  refine ⟨?_, h.fits, ?_, ?_, fun hlo => ?_⟩
  · rw [hframes]; exact h.ok
  · rw [grantedBuffers_append, hgranted, List.append_nil]; exact h.granted
  · rw [hframes, wireFrames_append, hwire, List.append_nil]; exact h.wire
  · rw [confirmations_append, hconf, List.append_nil]; exact h.confirmed hlo

/-- A lost request stays lost. -/
def Marks.Follows (m m' : Marks) : Prop := m.lo < m.head → m'.lo = m.lo ∧ m'.lo < m'.head

/-- Nothing is lost. -/
def Marks.Keeps (m m' : Marks) : Prop := m.lo = m.head → m'.lo = m'.head

theorem Marks.Follows.refl (m : Marks) : m.Follows m := fun h => ⟨rfl, h⟩

theorem Marks.Keeps.refl (m : Marks) : m.Keeps m := id

/-! ## The DMA -/

/-- A ring that is all sent has nothing for the DMA. -/
theorem DescsOk.not_own_dma {frames : List (List UInt8)} {r : TxRing} {pc : Option TransmitPc}
    (h : DescsOk buffer f frames r m pc) (hm : MarksOk f m pc) (hsent : m.sent pc ≤ m.dma) :
    ¬ (r.of f m.dma).Own := by
  have hgr := m.sent_le_granted pc
  have hroom := hm.room
  have hdma := hm.dma_le
  have hlo := hm.lo_le_dma
  have hpos := txRingSize_pos f
  rcases Nat.lt_or_ge m.dma (m.lo + txRingSize f) with hlt | hlap
  · intro hown
    have := (h.own m.dma hlo hlt).1 hown
    omega
  · have hdma : m.dma = m.lo + txRingSize f := by omega
    rw [hdma, of_add_size]
    intro hown
    have := (h.own m.lo (Nat.le_refl _) (by omega)).1 hown
    omega

theorem FifoOk.dmaDone {frames : List (List UInt8)} (h : FifoOk buffer f frames v m) (hlt : m.dma < m.sent v.pc)
    (des0 des3 : UInt32) :
    FifoOk buffer f frames
      { v with ring := v.ring.dmaDone (m.dma % txRingSize f) des0 des3, dma := (m.dma + 1) % txRingSize f }
      { m with dma := m.dma + 1 } :=
  ⟨⟨h.marks.lo_le_head, Nat.le_succ_of_le h.marks.lo_le_dma, hlt, h.marks.head_le, h.marks.room⟩,
    h.descs.dmaDone h.marks hlt des0 des3,
    ⟨h.requests.head, h.requests.tail, h.requests.chain, h.requests.last⟩, ⟨h.entries.entry, h.entries.confirm⟩,
    fun k hk hk' => h.data k (Nat.le_of_succ_le hk) hk', h.locals, h.granted, rfl, h.short⟩

theorem view_data (s : TxSide) (f : UInt8) (k : Nat) :
    (fifoView buffer s f).data k = read s.ctrl.memory (txBufferAddr buffer f k) 1536 := by
  simp only [fifoView]

theorem view_dmaSend (s : TxSide) (f : UInt8) (r : TxRing) (k : Nat) :
    fifoView buffer { s with ctrl := s.ctrl.setRing f r, dmaDesc := Function.update s.dmaDesc f k } f =
      { fifoView buffer s f with ring := r, dma := k } := by
  unfold fifoView EthCtrl.setRing EthTx.setRing
  simp only [Function.update_self]

/-- **The DMA sends the frames in order.** -/
theorem dma_ok (hf : f < ethMaxTxFifoSupported) (h : FifoSide buffer low high f (fifoView buffer s f) tr m)
    (des0 des3 : UInt32) :
    ∃ m', FifoSide buffer low high f (fifoView buffer (dmaSend s f des0 des3).1 f)
      (tr ++ (dmaSend s f des0 des3).2) m' ∧ m.Follows m' ∧ m.Keeps m' := by
  have hdma : s.dmaDesc f = m.dma % txRingSize f := h.ok.dma
  have hgr := m.sent_le_granted (fifoView buffer s f).pc
  have hroom := h.ok.marks.room
  have hlo := h.ok.marks.lo_le_dma
  unfold dmaSend
  rw [hdma]
  by_cases hlt : m.dma < m.sent (fifoView buffer s f).pc
  · have hown : ((fifoView buffer s f).ring.of f m.dma).Own :=
      (h.ok.descs.own m.dma hlo (by omega)).2 ⟨Nat.le_refl _, hlt⟩
    have hcond : f < ethMaxTxFifoSupported ∧
      ((s.ctrl.tx.ring f).bd (m.dma % txRingSize f)).des3 &&& gmacTdes3OwnMask ≠ 0 := ⟨hf, hown⟩
    have hnext : (s.ctrl.tx.ring f).next (m.dma % txRingSize f) = (m.dma + 1) % txRingSize f :=
      next_mod h.ok.descs.size m.dma
    obtain ⟨hdes0, hlen⟩ := h.ok.descs.sending m.dma (Nat.le_refl _) hlt
    -- what the DMA reads is the frame
    have hframe : read s.ctrl.memory ((s.ctrl.tx.ring f).bd (m.dma % txRingSize f)).des0
        (((s.ctrl.tx.ring f).bd (m.dma % txRingSize f)).des3 &&& gmacTdes3LengthMask).toNat =
        (grantedFrames low high f tr).getD m.dma [] := by
      have hshort := h.ok.length_getD_le m.dma
      have hdata := h.ok.data m.dma (Nat.le_refl _) (by omega)
      have haddr : ((s.ctrl.tx.ring f).bd (m.dma % txRingSize f)).des0 = txBufferAddr buffer f m.dma := hdes0
      have hn : (((s.ctrl.tx.ring f).bd (m.dma % txRingSize f)).des3 &&& gmacTdes3LengthMask).toNat =
        ((grantedFrames low high f tr).getD m.dma []).length := hlen
      rw [view_data, take_read _ _ hshort] at hdata
      rw [haddr, hn, hdata]
    simp only [if_pos hcond, hnext, hframe]
    have hfollows : m.Follows { m with dma := m.dma + 1 } := fun hlost => ⟨rfl, hlost⟩
    have hkeeps : m.Keeps { m with dma := m.dma + 1 } := fun heq => heq
    refine ⟨{ m with dma := m.dma + 1 }, ?_, hfollows, hkeeps⟩
    have hframes : grantedFrames low high f (tr ++ [.wire f ((grantedFrames low high f tr).getD m.dma [])]) =
        grantedFrames low high f tr := by
      unfold grantedFrames
      rw [copies_append]
      exact congrArg _ (List.append_nil _)
    have hcount : m.dma < (grantedFrames low high f tr).length := by
      rw [h.ok.granted]
      omega
    rw [view_dmaSend]
    refine ⟨?_, h.fits, ?_, ?_, fun heq => ?_⟩
    · rw [hframes]; exact h.ok.dmaDone hlt des0 des3
    · rw [grantedBuffers_append]
      exact (List.append_nil _).trans h.granted
    · rw [hframes, wireFrames_append, h.wire]
      show _ ++ (if f = f then some _ else none).toList = _
      rw [if_pos rfl, List.take_add_one, List.getD_eq_getElem?_getD, List.getElem?_eq_getElem hcount]
      rfl
    · rw [confirmations_append]
      exact (List.append_nil _).trans (h.confirmed heq)
  · have hown := h.ok.descs.not_own_dma h.ok.marks (Nat.not_lt.1 hlt)
    have hcond : ¬ (f < ethMaxTxFifoSupported ∧
      ((s.ctrl.tx.ring f).bd (m.dma % txRingSize f)).des3 &&& gmacTdes3OwnMask ≠ 0) := fun hc => hown hc.2
    simp only [if_neg hcond]
    exact ⟨m, h.frame rfl rfl rfl rfl, Marks.Follows.refl m, Marks.Keeps.refl m⟩

theorem view_dmaSend_of_ne {g : UInt8} (hgf : g ≠ f) (s : TxSide) (des0 des3 : UInt32) :
    fifoView buffer (dmaSend s f des0 des3).1 g = fifoView buffer s g := by
  unfold dmaSend
  simp only
  split
  · unfold fifoView EthCtrl.setRing EthTx.setRing
    simp only [Function.update_of_ne hgf]
  · rfl

/-! ## The interrupt -/

theorem Marks.report_follows (m : Marks) : m.Follows m.report := by
  intro hlost
  have hlo : m.report.lo = m.lo := if_neg (Nat.ne_of_lt hlost)
  have hhead : m.head ≤ m.report.head := Nat.le_max_left m.head m.dma
  exact ⟨hlo, by omega⟩

theorem Marks.report_keeps (m : Marks) : m.Keeps m.report := fun heq => if_pos heq

/-- The list still ends where the call expects it, unless the interrupt has emptied it
under its hands. -/
theorem Marks.report_fits {pc : Option TransmitPc} (hm : MarksOk f m pc) (h : m.Fits pc) :
    m.report.Fits pc ∨ pc = some .linkTail ∧ m.report.head = m.tail ∧ m.tail ≤ m.dma := by
  have hdma := hm.dma_le
  rcases pc with - | p
  · exact Or.inl (Nat.max_le.2 ⟨h, hdma⟩)
  · cases p
    case testHead => exact Or.inl (Nat.max_le.2 ⟨h, hdma⟩)
    case setHead | setTail =>
      have hfits : m.head = m.tail := h
      have hdma : m.dma ≤ m.tail := hdma
      refine Or.inl ?_
      show max m.head m.dma = m.tail
      omega
    case linkTail =>
      obtain ⟨hpos, hne⟩ : 0 < m.tail ∧ m.head ≠ m.tail := h
      have hdma : m.dma ≤ m.tail := hdma
      by_cases hlost : max m.head m.dma = m.tail
      · exact Or.inr ⟨rfl, hlost, by omega⟩
      · exact Or.inl ⟨hpos, hlost⟩
    all_goals exact Or.inl trivial

/-- The list was emptied before `pQueueTail->pNextBuffer` was written: the frame gets its
descriptor and leaves, but no interrupt will find its request. -/
theorem FifoOk.lose {frames : List (List UInt8)} (h : FifoOk buffer f frames v m) (hpc : v.pc = some .linkTail)
    (hhead : m.head = m.tail) : FifoOk buffer f frames v { m with head := m.tail + 1 } := by
  have hm := h.marks
  have hd := h.descs
  have hr := h.requests
  have he := h.entries
  have hdata := h.data
  have hgr := h.granted
  rw [hpc] at hm hd hr he hdata hgr
  refine ⟨?_, ?_, ?_, ?_, ?_, h.locals, ?_, h.dma, h.short⟩ <;> rw [hpc]
  · have := hm.lo_le_head
    exact ⟨by show m.lo ≤ m.tail + 1; omega, hm.lo_le_dma, hm.dma_le, Nat.le_refl _, hm.room⟩
  · exact hd.lose rfl hhead
  · refine ⟨?_, hr.tail, fun k hk hk' => ?_, fun k hk hk' _ => ?_⟩
    · have hq : v.requests.pQueueHead = if m.head < m.tail then some (txEntry f m.head) else none := hr.head
      rw [if_neg (by omega)] at hq
      have hnone : ¬ m.tail + 1 < m.tail := by omega
      exact hq.trans (if_neg hnone).symm
    · have hk : m.tail + 1 ≤ k := hk
      have hk' : k + 1 < m.tail := hk'
      omega
    · have hk : m.tail + 1 ≤ k := hk
      have hk' : k + 1 = m.tail := hk'
      omega
  · exact ⟨fun k hk hk' => he.entry k (by have hk : m.tail + 1 ≤ k := hk; omega) hk',
      fun k hk hk' => he.confirm k (by have hk : m.tail + 1 ≤ k := hk; omega) hk'⟩
  · exact hdata
  · exact hgr

/-- Confirmations grant and send nothing. -/
theorem nil_of_confirmed (h : ∀ e ∈ es, ∃ bufIdx result, e = .confirmed f bufIdx result) (g : UInt8) :
    copies g es = [] ∧ grantedBuffers g es = [] ∧ wireFrames g es = [] := by
  refine ⟨?_, ?_, ?_⟩ <;> refine List.filterMap_eq_nil_iff.2 fun e he => ?_ <;>
    obtain ⟨bufIdx, result, rfl⟩ := h e he <;> rfl

theorem step_txIrq {c : EthCtrl} (h : ethReportTransmission s.ctrl f = some (c, es)) :
    txSide.step s (.txIrq f) = some ({ s with ctrl := c }, es) := by
  show (ethReportTransmission s.ctrl f).map _ = _
  rw [h]
  rfl

theorem irq_ok (hb : BuffersOk buffer) (hf : f < ethMaxTxFifoSupported)
    (h : FifoSide buffer low high f (fifoView buffer s f) tr m) (hsafe : m.Safe (fifoView buffer s f).pc) :
    ∃ c es, ethReportTransmission s.ctrl f = some (c, es) ∧ Reported buffer f s m c es ∧
      ∃ m', FifoSide buffer low high f (fifoView buffer { s with ctrl := c } f) (tr ++ es) m' ∧ m.Follows m' ∧
        m.report.head ≤ m'.head ∧ (((fifoView buffer s f).pc = some .linkTail → m.dma < m.tail) → m.Keeps m') := by
  have hroom := h.ok.marks.room
  have hlo := h.ok.marks.lo_le_head
  have hlinked := m.linked_le_granted (fifoView buffer s f).pc
  have hsize := txRingSize_le f
  have hfuel : m.linked (fifoView buffer s f).pc - m.head < txBufferCount.toNat + 1 := by
    have h64 : txBufferCount.toNat = 64 := rfl
    omega
  obtain ⟨c, es, hrun, hok, hrep⟩ := reportFrom_ok hb hf _ s m h.ok hsafe hfuel
  have hev : copies f es = [] ∧ grantedBuffers f es = [] ∧ wireFrames f es = [] := nil_of_confirmed hrep.events f
  have hframes : grantedFrames low high f (tr ++ es) = grantedFrames low high f tr := by
    unfold grantedFrames
    rw [copies_append, hev.1, List.append_nil]
  have hwire : wireFrames f (tr ++ es) = (grantedFrames low high f (tr ++ es)).take m.dma := by
    rw [hframes, wireFrames_append, hev.2.2, List.append_nil]
    exact h.wire
  have hgranted : grantedBuffers f (tr ++ es) = grantedBuffers f tr := by
    rw [grantedBuffers_append, hev.2.1, List.append_nil]
  have hreport : ethReportTransmission s.ctrl f = some (c, es) := (if_pos hf).trans hrun
  refine ⟨c, es, hreport, hrep, ?_⟩
  have hpc : (fifoView buffer { s with ctrl := c } f).pc = (fifoView buffer s f).pc := rfl
  rcases Marks.report_fits h.ok.marks h.fits with hfits | ⟨hlink, hhead, hsent⟩
  · refine ⟨m.report, ⟨?_, ?_, hgranted.trans h.granted, hwire, fun heq => ?_⟩, m.report_follows,
      Nat.le_refl _, fun _ => m.report_keeps⟩
    · rw [hframes]; exact hok
    · rw [hpc]; exact hfits
    · -- the confirmed frames are the ones the list has moved over
      have heq' : m.lo = m.head := by
        rcases Nat.lt_or_eq_of_le hlo with hlost | heq'
        · have := m.report_follows hlost
          omega
        · exact heq'
      have hsplit : m.report.head = m.head + (m.report.head - m.head) :=
        (Nat.add_sub_of_le (Nat.le_max_left m.head m.dma)).symm
      have happend : List.range m.head ++ List.range' m.head (m.report.head - m.head) = List.range m.report.head := by
        rw [List.range_eq_range', List.range_eq_range', hsplit, ← List.range'_append_1, Nat.zero_add,
          Nat.add_sub_cancel_left]
      rw [confirmations_append, h.confirmed heq', hrep.confirmed, ← List.map_append, happend]
  · refine ⟨{ m.report with head := m.tail + 1 }, ⟨?_, ?_, hgranted.trans h.granted, hwire, fun heq => ?_⟩,
      fun hlost => ?_, ?_, fun hbusy => ?_⟩
    · rw [hframes]; exact hok.lose (hpc.trans hlink) hhead
    · have hfits := h.fits
      rw [hlink] at hfits
      rw [hpc, hlink]
      exact ⟨hfits.1, Nat.succ_ne_self m.tail⟩
    · have heq : m.report.lo = m.tail + 1 := heq
      have hle : m.report.lo ≤ m.report.head := by
        unfold Marks.report
        show (if m.lo = m.head then max m.head m.dma else m.lo) ≤ max m.head m.dma
        split <;> omega
      omega
    · obtain ⟨hlo', hlt⟩ := m.report_follows hlost
      exact ⟨hlo', by show m.report.lo < m.tail + 1; omega⟩
    · show m.report.head ≤ m.tail + 1
      omega
    · have := hbusy hlink
      omega

/-! ## The call -/

theorem advance_side {t : Transmitting} (hf : t.fifoIdx < ethMaxTxFifoSupported) (ht : s.transmit = some t)
    (h : FifoSide buffer low high t.fifoIdx (fifoView buffer s t.fifoIdx) tr m) :
    ∃ s₁ es, advanceTransmit s t = some (s₁, es) ∧
      (∀ bufIdx lenByte ok, .transmitted bufIdx lenByte ok ∈ es → ok = true) ∧
      ∃ m', FifoSide buffer low high t.fifoIdx (fifoView buffer s₁ t.fifoIdx) (tr ++ es) m' ∧ m.Follows m' ∧
        m.Keeps m' := by
  have hfits := h.fits
  rw [pc_of_transmit (transmit_view buffer ht)] at hfits
  obtain ⟨⟨s₁, es⟩, hadv, hnext⟩ := advance_ok ht h.ok hf hfits
  refine ⟨s₁, es, hadv, ?_⟩
  obtain ⟨⟨p, ht₁, rfl, hfits₁, hok⟩ | ⟨ht₁, rfl, hhead, hok⟩⟩ := hnext
  · have hpc : (fifoView buffer s₁ t.fifoIdx).pc = some p := pc_of_transmit (transmit_view buffer ht₁)
    have hpc₀ : (fifoView buffer s t.fifoIdx).pc = some t.pc := pc_of_transmit (transmit_view buffer ht)
    refine ⟨fun _ _ _ he => (by cases he), m, ⟨?_, ?_, ?_, ?_, fun heq => ?_⟩, Marks.Follows.refl m,
      Marks.Keeps.refl m⟩
    · rw [List.append_nil]; exact hok
    · rw [hpc]; exact hfits₁
    · rw [List.append_nil, hpc, h.granted, hpc₀]; rfl
    · rw [List.append_nil]; exact h.wire
    · rw [List.append_nil]; exact h.confirmed heq
  · have hpc : (fifoView buffer s₁ t.fifoIdx).pc = none := by
      show (transmitOn s₁.transmit t.fifoIdx).map _ = none
      have ht₁ : s₁.transmit = none := ht₁
      rw [ht₁]
      rfl
    have hframes : grantedFrames low high t.fifoIdx (tr ++ [.transmitted t.bufIdx t.lenByte true]) =
        grantedFrames low high t.fifoIdx tr := by
      unfold grantedFrames
      rw [copies_append]
      exact congrArg _ (List.append_nil _)
    have hfollows : m.Follows { m with tail := m.tail + 1 } := fun hlost => ⟨rfl, hlost⟩
    have hkeeps : m.Keeps { m with tail := m.tail + 1 } := fun heq => heq
    have hpc₀ : (fifoView buffer s t.fifoIdx).pc = some t.pc := pc_of_transmit (transmit_view buffer ht)
    have hok' : ∀ bufIdx lenByte ok, TxEvent.transmitted bufIdx lenByte ok ∈ [.transmitted t.bufIdx t.lenByte true] →
        ok = true := fun bufIdx lenByte ok he => (TxEvent.transmitted.inj (List.mem_singleton.1 he)).2.2
    refine ⟨hok', { m with tail := m.tail + 1 }, ⟨?_, ?_, ?_, ?_, fun heq => ?_⟩, hfollows, hkeeps⟩
    · rw [hframes]; exact hok
    · rw [hpc]; exact hhead
    · rw [grantedBuffers_append, h.granted, hpc, hpc₀]
      exact List.append_nil _
    · rw [hframes, wireFrames_append]
      exact (List.append_nil _).trans h.wire
    · rw [confirmations_append]
      exact (List.append_nil _).trans (h.confirmed heq)

/-! ## The offer -/

section Offer

variable {priority : UInt8} {container : List UInt8}

theorem pc_of_idle (hidle : s.transmit = none) (f : UInt8) : (fifoView buffer s f).pc = none := by
  show (transmitOn s.transmit f).map _ = none
  rw [hidle]
  rfl

theorem offer_of_room (hb : BuffersOk buffer) (hup : SideUp low high s)
    (h : FifoSide buffer low high (vlanPcpToFifoIdx priority) (fifoView buffer s (vlanPcpToFifoIdx priority)) tr m)
    (hidle : s.transmit = none) (hroom : m.tail < m.lo + txRingSize (vlanPcpToFifoIdx priority)) :
    offerContainer s priority container =
      (offered buffer (vlanPcpToFifoIdx priority) s m.tail container,
        [.provided priority txBufferRequest (.granted (txEntry (vlanPcpToFifoIdx priority) m.tail)
            (txBufferAddr buffer (vlanPcpToFifoIdx priority) m.tail + ethFrameHeaderLength.toUInt32) 1522),
          .copied (vlanPcpToFifoIdx priority) (txEntry (vlanPcpToFifoIdx priority) m.tail)
            (txBufferAddr buffer (vlanPcpToFifoIdx priority) m.tail + ethFrameHeaderLength.toUInt32) 1522
            container]) := by
  have hf := vlanPcpToFifoIdx_lt priority
  have hd := h.ok.descs
  have hm := h.ok.marks
  rw [pc_of_idle hidle] at hd hm
  have hprovide := provide_of_room hup.up.1 hd hm hroom
  have hcheck : ¬ (s.ctrl.tx.initialised = false ∨ s.ctrl.tx.active = false) := by
    rw [hup.up.1, hup.up.2]
    decide
  have hentry : ¬ (txEntry (vlanPcpToFifoIdx priority) m.tail ≥ txBufferCount ∨
      txBufferAddr buffer (vlanPcpToFifoIdx priority) m.tail = 0) := by
    rintro (hge | hzero)
    · exact absurd (txEntry_lt hf m.tail) (UInt32.not_lt.2 hge)
    · exact txBufferAddr_ne_zero hb hf m.tail hzero
  unfold offerContainer
  rw [hprovide]
  simp only [ethTransmitEnter, EthTx.setBuffer, EthTx.setRing, Function.update_self, if_neg hcheck, if_neg hentry]
  rfl

theorem offer_of_full (hup : SideUp low high s)
    (h : FifoSide buffer low high (vlanPcpToFifoIdx priority) (fifoView buffer s (vlanPcpToFifoIdx priority)) tr m)
    (hidle : s.transmit = none) (hfull : m.tail = m.lo + txRingSize (vlanPcpToFifoIdx priority)) :
    offerContainer s priority container = (s, [.provided priority txBufferRequest (.refused .busy txBufferRequest)]) := by
  have hd := h.ok.descs
  have hm := h.ok.marks
  rw [pc_of_idle hidle] at hd hm
  unfold offerContainer
  rw [provide_of_full hup.up.1 hd hm hfull]

/-- **A grant is a new frame** behind the others. -/
theorem offered_side (hb : BuffersOk buffer) (hf : f < ethMaxTxFifoSupported) (hup : SideUp low high s)
    (h : FifoSide buffer low high f (fifoView buffer s f) tr m) (hidle : s.transmit = none)
    (hlen : container.length ≤ 1522) (hroom : m.tail < m.lo + txRingSize f) (hcopies : copies f es = [container])
    (hgranted : grantedBuffers f es = [txEntry f m.tail]) (hwire : wireFrames f es = []) (hconf : confirmations f es = []) :
    FifoSide buffer low high f (fifoView buffer (offered buffer f s m.tail container) f) (tr ++ es) m := by
  have hfits := h.fits
  have hgr : (grantedFrames low high f tr).length = m.granted _ := h.ok.granted
  have hdma := h.ok.marks.dma_le
  rw [pc_of_idle hidle] at hfits hgr hdma
  have hframe := length_ethFrame low high container
  have hframes : grantedFrames low high f (tr ++ es) = grantedFrames low high f tr ++ [ethFrame low high container] := by
    unfold grantedFrames
    rw [copies_append, hcopies, List.map_append]
    rfl
  have hlenByte : (container.length.toUInt16 + ethFrameHeaderLength).toNat = (ethFrame low high container).length := by
    have h14 : ethFrameHeaderLength.toNat = 14 := rfl
    rw [hframe, UInt16.toNat_add, Nat.toUInt16_eq, UInt16.toNat_ofNat', h14]
    omega
  -- the buffer of the frame holds it, the others are as they were
  have hself : (read (insertFrame s.ctrl (txBufferAddr buffer f m.tail) container)
      (txBufferAddr buffer f m.tail) 1536).take (ethFrame low high container).length =
      ethFrame low high container := by
    have hfit := txBufferAddr_fits hb hf m.tail
    rw [take_read _ _ (by omega), hframe, read_insertFrame (by omega), hup.mac.1, hup.mac.2]
  have hother : ∀ j, j % txRingSize f ≠ m.tail % txRingSize f →
      read (insertFrame s.ctrl (txBufferAddr buffer f m.tail) container) (txBufferAddr buffer f j) 1536 =
        (fifoView buffer s f).data j := by
    intro j hj
    rw [view_data, read_insertFrame_of_apart (by omega) (apart_txBufferAddr_of_slot hb hf (Ne.symm hj))]
  have hnone : (fifoView buffer s f).transmit = none := by
    show transmitOn s.transmit f = none
    rw [hidle]
    rfl
  have hok := h.ok.offer hf
    (fun j => read (insertFrame s.ctrl (txBufferAddr buffer f m.tail) container) (txBufferAddr buffer f j) 1536)
    hnone hroom (by omega) hself hother hlenByte
  rw [view_offered]
  refine ⟨?_, hfits, ?_, ?_, fun heq => ?_⟩
  · rw [hframes]; exact hok
  · rw [grantedBuffers_append, hgranted, h.granted, pc_of_idle hidle, ← List.map_singleton, ← List.map_append]
    exact congrArg _ List.range_succ.symm
  · have hle : m.dma ≤ (grantedFrames low high f tr).length := by
      rw [hgr]
      exact hdma
    rw [hframes, wireFrames_append, hwire, List.append_nil, h.wire, List.take_append_of_le_length hle]
  · rw [confirmations_append, hconf, List.append_nil]
    exact h.confirmed heq

end Offer

end Steps

end CanTsn
