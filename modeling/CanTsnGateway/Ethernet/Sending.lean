import CanTsnGateway.Ethernet.Requests

/-!
# The statements of `Eth_Transmit`

Each statement keeps the invariant: the ones that link the request to the list
(`FifoOk.link`), the ones that fill the descriptor (`FifoOk.fill`), and the last one, after
which the call returns.  Together: `Eth_Transmit` goes on, and returns `E_OK`
(`advance_ok`).
-/

namespace CanTsn

open ByteMemory Ring

section View

variable {buffer : UInt8 → UInt32} {f : UInt8} {frames : List (List UInt8)} {v : FifoView} {m : Marks}
  {t : Transmitting}

theorem FifoOk.length_getD_le (h : FifoOk buffer f frames v m) (k : Nat) : (frames.getD k []).length ≤ 1536 := by
  rw [List.getD_eq_getElem?_getD]
  rcases Nat.lt_or_ge k frames.length with hk | hk
  · rw [List.getElem?_eq_getElem hk, Option.getD_some]
    exact h.short _ (List.getElem_mem hk)
  · rw [List.getElem?_eq_none hk, Option.getD_none]
    exact Nat.zero_le _

theorem pc_of_transmit (ht : v.transmit = some t) : v.pc = some t.pc := by
  unfold FifoView.pc
  rw [ht]
  rfl

theorem MarksOk.goto {p p' : TransmitPc} (h : MarksOk f m (some p)) (hsent : m.sent (some p) ≤ m.sent (some p')) :
    MarksOk f m (some p') :=
  ⟨h.lo_le_head, h.lo_le_dma, Nat.le_trans h.dma_le hsent, h.head_le, h.room⟩

theorem LocalsOk.goto (h : LocalsOk buffer f frames m (some t)) (p : TransmitPc) :
    LocalsOk buffer f frames m (some { t with pc := p }) := by
  intro t' ht'
  obtain rfl := Option.some.inj ht'
  exact h t rfl

/-- A statement that works on the list. -/
theorem FifoOk.link (h : FifoOk buffer f frames v m) (ht : v.transmit = some t) {p' : TransmitPc}
    (hp : t.pc.filled = false) (hp' : p'.filled = false) {q : EthQueueInfo} {next : Nat → Option UInt32}
    (hq : RequestsOk f q next m (some p')) :
    FifoOk buffer f frames { v with requests := q, next := next, transmit := some { t with pc := p' } } m := by
  have hpc := pc_of_transmit ht
  have hm := h.marks
  have hd := h.descs
  have he := h.entries
  have hdata := h.data
  have hl := h.locals
  have hgr := h.granted
  rw [hpc] at hm hd he hdata hgr
  rw [ht] at hl
  have hsent : m.sent (some t.pc) ≤ m.sent (some p') := by
    rw [m.sent_of_ne (TransmitPc.ne_of_not_filled hp), m.sent_of_ne (TransmitPc.ne_of_not_filled hp')]
  exact ⟨hm.goto hsent, hd.movePc hp hp', hq, ⟨he.entry, he.confirm⟩, hdata, hl.goto p', hgr, h.dma, h.short⟩

/-- From the linked request on, the statements leave the list as it is. -/
theorem RequestsOk.goto {p p' : TransmitPc} {q : EthQueueInfo} {next : Nat → Option UInt32}
    (h : RequestsOk f q next m (some p)) (hlinked : p.linked = p'.linked) (htail : p.tailMoved = p'.tailMoved)
    (hterm : Marks.Terminated (some p') → Marks.Terminated (some p)) : RequestsOk f q next m (some p') := by
  have hl : m.linked (some p') = m.linked (some p) := by simp only [Marks.linked, hlinked]
  have hq : m.queued (some p') = m.queued (some p) := by simp only [Marks.queued, htail]
  refine ⟨?_, ?_, ?_, ?_⟩
  · rw [hl]; exact h.head
  · rw [hq]; exact h.tail
  · rw [hl]; exact h.chain
  · rw [hl]; exact fun k hk hk' ht => h.last k hk hk' (hterm ht)

/-- A statement that fills the descriptor. -/
theorem FifoOk.fill (h : FifoOk buffer f frames v m) (ht : v.transmit = some t) {p' : TransmitPc} {b : TxDesc}
    (hpc : t.pc = .fillDesc ∧ p' = .fillLength ∨ t.pc = .fillLength ∧ p' = .setOwn ∨
      t.pc = .setOwn ∧ p' = .moveTailPointer)
    (hinfo1 : b.info1 = (v.ring.of f m.tail).info1) (hown : b.Own ↔ p' = .moveTailPointer)
    (hinfo0 : b.info0 = txBufferAddr buffer f m.tail) (hdes0 : b.des0 = txBufferAddr buffer f m.tail)
    (hlen : p' = .setOwn → b.des3.toNat = (frames.getD m.tail []).length)
    (hlen' : p' = .moveTailPointer → (b.des3 &&& gmacTdes3LengthMask).toNat = (frames.getD m.tail []).length) :
    FifoOk buffer f frames
      { v with ring := v.ring.write (m.tail % txRingSize f) b, transmit := some { t with pc := p' } } m := by
  have hp := pc_of_transmit ht
  have hm := h.marks
  have hd := h.descs
  have hr := h.requests
  have he := h.entries
  have hdata := h.data
  have hl := h.locals
  have hgr := h.granted
  rw [hp] at hm hd hr he hdata hgr
  rw [ht] at hl
  have hne : t.pc ≠ .moveTailPointer := by
    rcases hpc with ⟨h', -⟩ | ⟨h', -⟩ | ⟨h', -⟩ <;> rw [h'] <;> decide
  have hfilled : p'.filled = true := by rcases hpc with ⟨-, h'⟩ | ⟨-, h'⟩ | ⟨-, h'⟩ <;> rw [h'] <;> rfl
  have hsent : m.sent (some t.pc) ≤ m.sent (some p') := by
    rw [m.sent_of_ne hne]
    exact m.tail_le_sent _
  have hlist : RequestsOk f v.requests v.next m (some p') := by
    refine hr.goto ?_ ?_ ?_ <;> rcases hpc with ⟨h', h''⟩ | ⟨h', h''⟩ | ⟨h', h''⟩ <;> rw [h', h''] <;>
      first | rfl | exact fun _ => trivial
  exact ⟨hm.goto hsent, hd.writeTail hm hne hfilled hinfo1 hown hinfo0 hdes0 hlen hlen', hlist,
    ⟨he.entry, he.confirm⟩, hdata, hl.goto p', hgr, h.dma, h.short⟩

/-- The last statement: the frame counts as sent and the call returns. -/
theorem FifoOk.return (h : FifoOk buffer f frames v m) (ht : v.transmit = some t) (hpc : t.pc = .moveTailPointer) :
    FifoOk buffer f frames { v with
      ring := { v.ring with tail := (m.tail + 1) % txRingSize f }
      transmit := none } { m with tail := m.tail + 1 } := by
  have hp := pc_of_transmit ht
  have hm := h.marks
  have hd := h.descs
  have hr := h.requests
  have he := h.entries
  have hdata := h.data
  have hgr := h.granted
  rw [hp, hpc] at hm hd hr he hdata hgr
  exact ⟨⟨hm.lo_le_head, hm.lo_le_dma, hm.dma_le, hm.head_le, hm.room⟩, hd.moveTailPointer,
    ⟨hr.head, hr.tail, hr.chain, hr.last⟩, ⟨he.entry, he.confirm⟩, hdata, fun t' ht' => (by cases ht'), hgr,
    h.dma, h.short⟩

/-! ## Linking -/

theorem RequestsOk.setHead {q : EthQueueInfo} {next : Nat → Option UInt32}
    (h : RequestsOk f q next m (some .setHead)) (hfits : m.head = m.tail) :
    RequestsOk f { q with pQueueHead := some (txEntry f m.tail) } next m (some .setTail) := by
  refine ⟨?_, h.tail, fun k hk hk' => ?_, fun _ _ _ hterm => hterm.elim⟩
  · show some (txEntry f m.tail) = if m.head < m.tail + 1 then some (txEntry f m.head) else none
    rw [if_pos (by omega), hfits]
  · have hk' : k + 1 < m.tail + 1 := hk'
    omega

/-- `pQueueTail` gets the new entry, after either way of linking it. -/
theorem RequestsOk.moveTail {p : TransmitPc} {q : EthQueueInfo} {next : Nat → Option UInt32}
    (h : RequestsOk f q next m (some p)) (hp : p.linked = true) :
    RequestsOk f { q with pQueueTail := some (txEntry f m.tail) } next m (some .terminate) := by
  have hl : m.linked (some p) = m.tail + 1 := if_pos hp
  have hhead := h.head
  have hchain := h.chain
  rw [hl] at hhead hchain
  exact ⟨hhead, fun _ => rfl, hchain, fun _ _ _ hterm => hterm.elim⟩

/-- A write to the entry of frame `k`. -/
def setNextOf (f : UInt8) (next : Nat → Option UInt32) (k : Nat) (p : Option UInt32) : Nat → Option UInt32 :=
  fun j => if txEntry f j = txEntry f k then p else next j

theorem setNextOf_self (f : UInt8) (next : Nat → Option UInt32) (k : Nat) (p : Option UInt32) :
    setNextOf f next k p k = p := if_pos rfl

theorem setNextOf_of_ne (hf : f < ethMaxTxFifoSupported) (lo : Nat) {j k : Nat} (hj : lo ≤ j ∧ j < lo + txRingSize f)
    (hk : lo ≤ k ∧ k < lo + txRingSize f) (hjk : j ≠ k) (next : Nat → Option UInt32) (p : Option UInt32) :
    setNextOf f next k p j = next j := if_neg fun h => hjk ((txEntry_eq_iff hf lo hj hk).1 h)

theorem RequestsOk.linkTail (hf : f < ethMaxTxFifoSupported) {q : EthQueueInfo} {next : Nat → Option UInt32}
    (hm : MarksOk f m (some .linkTail)) (h : RequestsOk f q next m (some .linkTail))
    (hfits : 0 < m.tail ∧ m.head ≠ m.tail) :
    RequestsOk f q (setNextOf f next (m.tail - 1) (some (txEntry f m.tail))) m (some .moveTail) := by
  have hhead : m.head ≤ m.tail + 1 := hm.head_le
  have hroom : m.tail + 1 ≤ m.lo + txRingSize f := hm.room
  have hlo := hm.lo_le_head
  refine ⟨?_, h.tail, fun k hk hk' => ?_, fun _ _ _ hterm => hterm.elim⟩
  · have hq : q.pQueueHead = if m.head < m.tail then some (txEntry f m.head) else none := h.head
    show q.pQueueHead = if m.head < m.tail + 1 then some (txEntry f m.head) else none
    rw [hq]
    by_cases hlt : m.head < m.tail
    · rw [if_pos hlt, if_pos (by omega)]
    · rw [if_neg hlt, if_neg (by omega)]
  · have hk' : k + 1 < m.tail + 1 := hk'
    by_cases hlast : k = m.tail - 1
    · have hkt : k + 1 = m.tail := by omega
      rw [hkt, hlast, setNextOf_self]
    · rw [setNextOf_of_ne hf m.lo ⟨by omega, by omega⟩ ⟨by omega, by omega⟩ hlast]
      exact h.chain k hk (by show k + 1 < m.tail; omega)

theorem RequestsOk.terminate (hf : f < ethMaxTxFifoSupported) {q : EthQueueInfo} {next : Nat → Option UInt32}
    (hm : MarksOk f m (some .terminate)) (h : RequestsOk f q next m (some .terminate)) :
    RequestsOk f q (setNextOf f next m.tail none) m (some .testOwn) := by
  have hroom : m.tail + 1 ≤ m.lo + txRingSize f := hm.room
  have hlo := hm.lo_le_head
  have hdma := hm.lo_le_dma
  have hdma' : m.dma ≤ m.tail := hm.dma_le
  refine ⟨h.head, h.tail, fun k hk hk' => ?_, fun k hk hk' _ => ?_⟩
  · have hk' : k + 1 < m.tail + 1 := hk'
    rw [setNextOf_of_ne hf m.lo ⟨by omega, by omega⟩ ⟨by omega, by omega⟩ (by omega)]
    exact h.chain k hk hk'
  · have hk' : k + 1 = m.tail + 1 := hk'
    have hkt : k = m.tail := by omega
    rw [hkt, setNextOf_self]

end View

/-! ## The view of a statement -/

section Advance

variable {buffer : UInt8 → UInt32} {f g : UInt8} {frames : List (List UInt8)} {s : TxSide} {m : Marks}
  {t : Transmitting}

theorem transmitOn_some (h : t.fifoIdx = f) : transmitOn (some t) f = some t := by
  unfold transmitOn
  rw [Option.filter_some, if_pos (decide_eq_true h)]

theorem transmitOn_of_ne (h : t.fifoIdx ≠ f) : transmitOn (some t) f = none := by
  unfold transmitOn
  rw [Option.filter_some, if_neg (by rw [decide_eq_true_iff]; exact h)]

/-- Transmit state and FIFO: what a statement changes. -/
theorem view_setRing (s : TxSide) (f : UInt8) (r : TxRing) (o : Option Transmitting) :
    fifoView buffer { s with ctrl := s.ctrl.setRing f r, transmit := o } f =
      { fifoView buffer s f with ring := r, transmit := transmitOn o f } := by
  unfold fifoView EthCtrl.setRing EthTx.setRing
  simp only [Function.update_self]

theorem view_setRequests (s : TxSide) (f : UInt8) (q : EthQueueInfo) (o : Option Transmitting) :
    fifoView buffer { s with ctrl := s.ctrl.setRequests f q, transmit := o } f =
      { fifoView buffer s f with requests := q, transmit := transmitOn o f } := by
  unfold fifoView EthCtrl.setRequests
  simp only [Function.update_self]

theorem view_setNext (s : TxSide) (f : UInt8) (k : Nat) (p : Option UInt32) (o : Option Transmitting) :
    fifoView buffer { s with ctrl := s.ctrl.setNext (txEntry f k) p, transmit := o } f =
      { fifoView buffer s f with
        next := setNextOf f (fifoView buffer s f).next k p
        transmit := transmitOn o f } := by
  unfold fifoView EthCtrl.setNext setNextOf
  simp only [Function.update_apply]

theorem view_transmit (s : TxSide) (f : UInt8) (o : Option Transmitting) :
    fifoView buffer { s with transmit := o } f = { fifoView buffer s f with transmit := transmitOn o f } := by
  simp only [fifoView]

/-- A statement on one FIFO does not show on another. -/
theorem view_transmitStep_of_ne (buffer : UInt8 → UInt32) (hf : t.fifoIdx < ethMaxTxFifoSupported)
    (hg : g < ethMaxTxFifoSupported) (hgf : g ≠ t.fifoIdx) (htail : t.pc = .linkTail ∨ t.pc = .terminate →
      ∃ k, (s.ctrl.transmissionRequests t.fifoIdx).pQueueTail = some (txEntry t.fifoIdx k))
    {c : EthCtrl} {next : TransmitNext} (hstep : transmitStep s.ctrl t = some (c, next))
    (o : Option Transmitting) (ho : transmitOn o g = transmitOn s.transmit g) :
    fifoView buffer { s with ctrl := c, transmit := o } g = fifoView buffer s g := by
  have hnext : ∀ k p j, Function.update s.ctrl.pNextBuffer (txEntry t.fifoIdx k) p (txEntry g j) =
      s.ctrl.pNextBuffer (txEntry g j) := fun k p j =>
    Function.update_of_ne (fun h => hgf (txEntry_inj hg hf h).1) _ _
  unfold transmitStep at hstep
  cases hpc : t.pc <;> simp only [hpc] at hstep
  case linkTail =>
    obtain ⟨k, hk⟩ := htail (Or.inl hpc)
    rw [hk] at hstep
    cases hstep
    unfold fifoView EthCtrl.setNext
    simp only [ho, hnext]
  case terminate =>
    obtain ⟨k, hk⟩ := htail (Or.inr hpc)
    rw [hk] at hstep
    cases hstep
    unfold fifoView EthCtrl.setNext
    simp only [ho, hnext]
  all_goals cases hstep
  case testHead | testOwn => unfold fifoView; rw [ho]
  case setHead | setTail | moveTail =>
    unfold fifoView EthCtrl.setRequests
    simp only [ho, Function.update_of_ne hgf]
  case fillDesc | fillLength | setOwn | moveTailPointer =>
    unfold fifoView EthCtrl.setRing EthTx.setRing
    simp only [ho, Function.update_of_ne hgf]

/-- What a statement leaves behind: the call goes on, or it returns `E_OK`. -/
structure Advanced (buffer : UInt8 → UInt32) (frames : List (List UInt8)) (t : Transmitting) (m : Marks)
    (r : TxSide × List TxEvent) : Prop where
  next : (∃ p, r.1.transmit = some { t with pc := p } ∧ r.2 = [] ∧ m.Fits (some p) ∧
      FifoOk buffer t.fifoIdx frames (fifoView buffer r.1 t.fifoIdx) m) ∨
    (r.1.transmit = none ∧ r.2 = [.transmitted t.bufIdx t.lenByte true] ∧ m.head ≤ m.tail + 1 ∧
      FifoOk buffer t.fifoIdx frames (fifoView buffer r.1 t.fifoIdx) { m with tail := m.tail + 1 })

theorem advance_of_step {c : EthCtrl} {next : TransmitNext} (h : transmitStep s.ctrl t = some (c, next)) :
    advanceTransmit s t = some (next.resume s t c) := by
  unfold advanceTransmit
  rw [h, Option.map_some]

/-- A statement after which the call goes on. -/
theorem advanced_of_running {c : EthCtrl} {p : TransmitPc} (hstep : transmitStep s.ctrl t = some (c, .running p))
    (hfits : m.Fits (some p)) (hok : FifoOk buffer t.fifoIdx frames
      (fifoView buffer { s with ctrl := c, transmit := some { t with pc := p } } t.fifoIdx) m) :
    ∃ r, advanceTransmit s t = some r ∧ Advanced buffer frames t m r :=
  ⟨_, advance_of_step hstep, ⟨Or.inl ⟨p, rfl, rfl, hfits, hok⟩⟩⟩

theorem transmit_view (buffer : UInt8 → UInt32) (ht : s.transmit = some t) :
    (fifoView buffer s t.fifoIdx).transmit = some t := by
  show transmitOn s.transmit t.fifoIdx = some t
  rw [ht, transmitOn_some rfl]

section Cases

variable (hf : t.fifoIdx < ethMaxTxFifoSupported) (ht : s.transmit = some t)
  (h : FifoOk buffer t.fifoIdx frames (fifoView buffer s t.fifoIdx) m)

include ht h

theorem advance_testHead (hpc : t.pc = .testHead) (hfits : m.head ≤ m.tail) :
    ∃ r, advanceTransmit s t = some r ∧ Advanced buffer frames t m r := by
  have hv := transmit_view buffer ht
  have hr := h.requests
  rw [pc_of_transmit hv, hpc] at hr
  have hhead : (s.ctrl.transmissionRequests t.fifoIdx).pQueueHead =
    if m.head < m.tail then some (txEntry t.fifoIdx m.head) else none := hr.head
  have hstep : transmitStep s.ctrl t = some (s.ctrl, .running
      (if (if m.head < m.tail then some (txEntry t.fifoIdx m.head) else none) = none then .setHead else .linkTail)) := by
    simp only [transmitStep, hpc, hhead]
  refine advanced_of_running hstep ?_ ?_
  · by_cases hlt : m.head < m.tail
    · rw [if_pos hlt, if_neg (by simp)]
      exact ⟨by omega, by omega⟩
    · rw [if_neg hlt, if_pos rfl]
      show m.head = m.tail
      omega
  · rw [view_transmit, transmitOn_some (t := { t with pc := _ }) rfl]
    refine h.link hv (by rw [hpc]; rfl) ?_ ?_
    · split <;> rfl
    · split <;> exact hr.goto rfl rfl fun _ => trivial

theorem advance_setHead (hpc : t.pc = .setHead) (hfits : m.head = m.tail) :
    ∃ r, advanceTransmit s t = some r ∧ Advanced buffer frames t m r := by
  have hv := transmit_view buffer ht
  have hr := h.requests
  rw [pc_of_transmit hv, hpc] at hr
  have hr' := hr.setHead hfits
  rw [← (h.locals t hv).2.1] at hr'
  have hstep : transmitStep s.ctrl t = some (s.ctrl.setRequests t.fifoIdx
      { s.ctrl.transmissionRequests t.fifoIdx with pQueueHead := some t.bufIdx }, .running .setTail) := by
    simp only [transmitStep, hpc]
  refine advanced_of_running hstep hfits ?_
  rw [view_setRequests, transmitOn_some (t := { t with pc := _ }) rfl]
  exact h.link hv (by rw [hpc]; rfl) rfl hr'

theorem advance_moveTail (hpc : t.pc = .setTail ∨ t.pc = .moveTail) :
    ∃ r, advanceTransmit s t = some r ∧ Advanced buffer frames t m r := by
  have hv := transmit_view buffer ht
  have hr := h.requests
  rw [pc_of_transmit hv] at hr
  have hr' := hr.moveTail (by rcases hpc with hpc | hpc <;> rw [hpc] <;> rfl)
  rw [← (h.locals t hv).2.1] at hr'
  have hstep : transmitStep s.ctrl t = some (s.ctrl.setRequests t.fifoIdx
      { s.ctrl.transmissionRequests t.fifoIdx with pQueueTail := some t.bufIdx }, .running .terminate) := by
    rcases hpc with hpc | hpc <;> simp only [transmitStep, hpc]
  refine advanced_of_running hstep trivial ?_
  rw [view_setRequests, transmitOn_some (t := { t with pc := _ }) rfl]
  exact h.link hv (by rcases hpc with hpc | hpc <;> rw [hpc] <;> rfl) rfl hr'

theorem advance_linkTail (hf : t.fifoIdx < ethMaxTxFifoSupported) (hpc : t.pc = .linkTail)
    (hfits : 0 < m.tail ∧ m.head ≠ m.tail) : ∃ r, advanceTransmit s t = some r ∧ Advanced buffer frames t m r := by
  have hv := transmit_view buffer ht
  have hr := h.requests
  have hm := h.marks
  rw [pc_of_transmit hv, hpc] at hr hm
  have htail : (s.ctrl.transmissionRequests t.fifoIdx).pQueueTail = some (txEntry t.fifoIdx (m.tail - 1)) :=
    hr.tail hfits.1
  have hr' := hr.linkTail hf hm hfits
  rw [← (h.locals t hv).2.1] at hr'
  have hstep : transmitStep s.ctrl t = some
      (s.ctrl.setNext (txEntry t.fifoIdx (m.tail - 1)) (some t.bufIdx), .running .moveTail) := by
    simp only [transmitStep, hpc, htail, Option.map_some]
  refine advanced_of_running hstep trivial ?_
  rw [view_setNext, transmitOn_some (t := { t with pc := _ }) rfl]
  exact h.link hv (by rw [hpc]; rfl) rfl hr'

theorem advance_terminate (hf : t.fifoIdx < ethMaxTxFifoSupported) (hpc : t.pc = .terminate) :
    ∃ r, advanceTransmit s t = some r ∧ Advanced buffer frames t m r := by
  have hv := transmit_view buffer ht
  have hr := h.requests
  have hm := h.marks
  rw [pc_of_transmit hv, hpc] at hr hm
  have htail : (s.ctrl.transmissionRequests t.fifoIdx).pQueueTail = some (txEntry t.fifoIdx m.tail) :=
    hr.tail (Nat.succ_pos m.tail)
  have hstep : transmitStep s.ctrl t =
      some (s.ctrl.setNext (txEntry t.fifoIdx m.tail) none, .running .testOwn) := by
    simp only [transmitStep, hpc, htail, Option.map_some]
  refine advanced_of_running hstep trivial ?_
  rw [view_setNext, transmitOn_some (t := { t with pc := _ }) rfl]
  exact h.link hv (by rw [hpc]; rfl) rfl (hr.terminate hf hm)

omit ht in
/-- The descriptor that `Gmac_Ip_SendFrame` works on. -/
theorem bd_tail : (s.ctrl.tx.ring t.fifoIdx).bd (s.ctrl.tx.ring t.fifoIdx).tail =
    (fifoView buffer s t.fifoIdx).ring.of t.fifoIdx m.tail := by
  have htail : (s.ctrl.tx.ring t.fifoIdx).tail = m.tail % txRingSize t.fifoIdx := h.descs.tail
  rw [htail]
  rfl

theorem advance_testOwn (hpc : t.pc = .testOwn) : ∃ r, advanceTransmit s t = some r ∧ Advanced buffer frames t m r := by
  have hv := transmit_view buffer ht
  have hr := h.requests
  have hd := h.descs
  have hm := h.marks
  rw [pc_of_transmit hv, hpc] at hr hd hm
  have hown := hd.not_own_tail hm (by decide)
  rw [← bd_tail h] at hown
  have hown' : ¬ ((s.ctrl.tx.ring t.fifoIdx).bd (s.ctrl.tx.ring t.fifoIdx).tail).des3 &&& gmacTdes3OwnMask ≠ 0 :=
    hown
  have hstep : transmitStep s.ctrl t = some (s.ctrl, .running .fillDesc) := by
    simp only [transmitStep, hpc]
    rw [if_neg hown']
  refine advanced_of_running hstep trivial ?_
  rw [view_transmit, transmitOn_some (t := { t with pc := _ }) rfl]
  exact h.link hv (by rw [hpc]; rfl) rfl (hr.goto rfl rfl fun _ => trivial)

/-- The three statements that write the descriptor. -/
theorem advance_fill {p : TransmitPc} {b : TxDesc}
    (hpc : t.pc = .fillDesc ∧ p = .fillLength ∨ t.pc = .fillLength ∧ p = .setOwn ∨
      t.pc = .setOwn ∧ p = .moveTailPointer)
    (hstep : transmitStep s.ctrl t = some (s.ctrl.setRing t.fifoIdx
      ((s.ctrl.tx.ring t.fifoIdx).write (s.ctrl.tx.ring t.fifoIdx).tail b), .running p))
    (hinfo1 : b.info1 = ((fifoView buffer s t.fifoIdx).ring.of t.fifoIdx m.tail).info1)
    (hown : b.Own ↔ p = .moveTailPointer) (hinfo0 : b.info0 = txBufferAddr buffer t.fifoIdx m.tail)
    (hdes0 : b.des0 = txBufferAddr buffer t.fifoIdx m.tail)
    (hlen : p = .setOwn → b.des3.toNat = (frames.getD m.tail []).length)
    (hlen' : p = .moveTailPointer → (b.des3 &&& gmacTdes3LengthMask).toNat = (frames.getD m.tail []).length) :
    ∃ r, advanceTransmit s t = some r ∧ Advanced buffer frames t m r := by
  have hv := transmit_view buffer ht
  have htail : (s.ctrl.tx.ring t.fifoIdx).tail = m.tail % txRingSize t.fifoIdx := h.descs.tail
  rw [htail] at hstep
  refine advanced_of_running hstep ?_ ?_
  · rcases hpc with ⟨-, rfl⟩ | ⟨-, rfl⟩ | ⟨-, rfl⟩ <;> trivial
  · rw [view_setRing, transmitOn_some (t := { t with pc := _ }) rfl]
    exact h.fill hv hpc hinfo1 hown hinfo0 hdes0 hlen hlen'

theorem advance_fillDesc (hpc : t.pc = .fillDesc) : ∃ r, advanceTransmit s t = some r ∧ Advanced buffer frames t m r := by
  have hv := transmit_view buffer ht
  have hd := h.descs
  have hm := h.marks
  rw [pc_of_transmit hv, hpc] at hd hm
  have haddr := (h.locals t hv).2.2.1
  refine advance_fill ht h (p := .fillLength) (Or.inl ⟨hpc, rfl⟩) (b := {
      (s.ctrl.tx.ring t.fifoIdx).bd (s.ctrl.tx.ring t.fifoIdx).tail with
      des0 := t.frameBuffer, info0 := t.frameBuffer }) ?_ ?_ ?_ haddr haddr (fun hp => (by cases hp))
    (fun hp => (by cases hp))
  · simp only [transmitStep, hpc]
  · rw [bd_tail h]
  · rw [bd_tail h]
    exact iff_of_false (hd.not_own_tail hm (by decide)) (by decide)

theorem advance_fillLength (hpc : t.pc = .fillLength) : ∃ r, advanceTransmit s t = some r ∧ Advanced buffer frames t m r := by
  have hv := transmit_view buffer ht
  have hd := h.descs
  rw [pc_of_transmit hv, hpc] at hd
  have hlen := (h.locals t hv).2.2.2
  refine advance_fill ht h (p := .setOwn) (Or.inr (Or.inl ⟨hpc, rfl⟩)) (b := {
      (s.ctrl.tx.ring t.fifoIdx).bd (s.ctrl.tx.ring t.fifoIdx).tail with
      des3 := t.frameLength.toUInt32 }) ?_ ?_ ?_ ?_ ?_ (fun _ => ?_) (fun hp => (by cases hp))
  · simp only [transmitStep, hpc]
  · rw [bd_tail h]
  · exact iff_of_false (TxDesc.not_own_length _ _) (by decide)
  · rw [bd_tail h]
    exact (hd.held .fillLength rfl (by decide)).2
  · rw [bd_tail h]
    exact hd.filled .fillLength rfl (by decide) rfl
  · show t.frameLength.toUInt32.toNat = _
    rw [UInt16.toNat_toUInt32, hlen]

theorem advance_setOwn (hpc : t.pc = .setOwn) : ∃ r, advanceTransmit s t = some r ∧ Advanced buffer frames t m r := by
  have hv := transmit_view buffer ht
  have hd := h.descs
  rw [pc_of_transmit hv, hpc] at hd
  have hlen := hd.lengthFilled rfl
  have hshort := h.length_getD_le m.tail
  refine advance_fill ht h (p := .moveTailPointer) (Or.inr (Or.inr ⟨hpc, rfl⟩)) (b := {
      (s.ctrl.tx.ring t.fifoIdx).bd (s.ctrl.tx.ring t.fifoIdx).tail with
      des3 := ((s.ctrl.tx.ring t.fifoIdx).bd (s.ctrl.tx.ring t.fifoIdx).tail).des3 ||| gmacTdes3OwnMask })
    ?_ ?_ ?_ ?_ ?_ (fun hp => (by cases hp)) (fun _ => ?_)
  · simp only [transmitStep, hpc]
  · rw [bd_tail h]
  · exact iff_of_true (TxDesc.own_or _ _) rfl
  · rw [bd_tail h]
    exact (hd.held .setOwn rfl (by decide)).2
  · rw [bd_tail h]
    exact hd.filled .setOwn rfl (by decide) rfl
  · rw [← hlen] at hshort ⊢
    rw [bd_tail h]
    exact congrArg UInt32.toNat (TxDesc.length_or_own (Nat.lt_of_le_of_lt hshort (by decide)))

theorem advance_moveTailPointer (hpc : t.pc = .moveTailPointer) :
    ∃ r, advanceTransmit s t = some r ∧ Advanced buffer frames t m r := by
  have hv := transmit_view buffer ht
  have hd := h.descs
  have hm := h.marks
  rw [pc_of_transmit hv, hpc] at hm
  have htail : (s.ctrl.tx.ring t.fifoIdx).tail = m.tail % txRingSize t.fifoIdx := hd.tail
  have hnext : (s.ctrl.tx.ring t.fifoIdx).next (s.ctrl.tx.ring t.fifoIdx).tail =
      (m.tail + 1) % txRingSize t.fifoIdx := by
    rw [htail]
    exact next_mod hd.size m.tail
  have hstep : transmitStep s.ctrl t = some (s.ctrl.setRing t.fifoIdx
      { s.ctrl.tx.ring t.fifoIdx with tail := (m.tail + 1) % txRingSize t.fifoIdx }, .returned true) := by
    simp only [transmitStep, hpc, hnext]
  refine ⟨_, advance_of_step hstep, ⟨Or.inr ⟨rfl, rfl, hm.head_le, ?_⟩⟩⟩
  rw [TransmitNext.resume, view_setRing]
  exact h.return hv hpc

/-- **The statements of `Eth_Transmit` keep the invariant.** -/
theorem advance_ok (hf : t.fifoIdx < ethMaxTxFifoSupported) (hfits : m.Fits (some t.pc)) :
    ∃ r, advanceTransmit s t = some r ∧ Advanced buffer frames t m r := by
  cases hpc : t.pc <;> rw [hpc] at hfits
  case testHead => exact advance_testHead ht h hpc hfits
  case setHead => exact advance_setHead ht h hpc hfits
  case setTail => exact advance_moveTail ht h (Or.inl hpc)
  case linkTail => exact advance_linkTail ht h hf hpc hfits
  case moveTail => exact advance_moveTail ht h (Or.inr hpc)
  case terminate => exact advance_terminate ht h hf hpc
  case testOwn => exact advance_testOwn ht h hpc
  case fillDesc => exact advance_fillDesc ht h hpc
  case fillLength => exact advance_fillLength ht h hpc
  case setOwn => exact advance_setOwn ht h hpc
  case moveTailPointer => exact advance_moveTailPointer ht h hpc

theorem view_advance_of_ne (hf : t.fifoIdx < ethMaxTxFifoSupported) (hfits : m.Fits (some t.pc))
    {r : TxSide × List TxEvent} (hadv : advanceTransmit s t = some r) (hg : g < ethMaxTxFifoSupported)
    (hgf : g ≠ t.fifoIdx) : fifoView buffer r.1 g = fifoView buffer s g := by
  have hr := h.requests
  rw [pc_of_transmit (transmit_view buffer ht)] at hr
  have htail : t.pc = .linkTail ∨ t.pc = .terminate →
      ∃ k, (s.ctrl.transmissionRequests t.fifoIdx).pQueueTail = some (txEntry t.fifoIdx k) := by
    intro hpc
    refine ⟨m.queued (some t.pc) - 1, hr.tail ?_⟩
    rcases hpc with hpc | hpc <;> rw [hpc] at hfits ⊢
    · exact hfits.1
    · exact Nat.succ_pos m.tail
  have hnone : transmitOn s.transmit g = none := by
    rw [ht]
    exact transmitOn_of_ne (Ne.symm hgf)
  obtain ⟨⟨c, next⟩, hstep, rfl⟩ := Option.map_eq_some_iff.1 hadv
  have hview := view_transmitStep_of_ne buffer hf hg hgf htail hstep
  cases next with
  | running p => exact hview _ (by rw [hnone, transmitOn_of_ne (t := { t with pc := p }) (Ne.symm hgf)])
  | returned ok => exact hview none (by rw [hnone]; rfl)

end Cases

/-- What the checks and the header read stays as it is. -/
structure TransmitKeeps (c c₁ : EthCtrl) : Prop where
  up : c₁.tx.initialised = c.tx.initialised ∧ c₁.tx.active = c.tx.active
  mac : c₁.macAddress0Low = c.macAddress0Low ∧ c₁.macAddress0High = c.macAddress0High
  memory : c₁.memory = c.memory

theorem transmitStep_keeps {c c₁ : EthCtrl} {next : TransmitNext} (h : transmitStep c t = some (c₁, next)) :
    TransmitKeeps c c₁ := by
  unfold transmitStep at h
  cases hpc : t.pc <;> simp only [hpc] at h
  case linkTail | terminate =>
    obtain ⟨tail, -, htail⟩ := Option.map_eq_some_iff.1 h
    cases htail
    exact ⟨⟨rfl, rfl⟩, ⟨rfl, rfl⟩, rfl⟩
  all_goals
    cases h
    exact ⟨⟨rfl, rfl⟩, ⟨rfl, rfl⟩, rfl⟩

end Advance

end CanTsn
