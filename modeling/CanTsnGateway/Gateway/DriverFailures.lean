import CanTsnGateway.Gateway.OverflowCarry

/-!
# Driver failures and packing

The packing does not depend on what the driver answers.  Two runs over the same queue and
gate results go through states that agree in everything but `canStats` and the driver's
outputs `bufIdx`, `ethPayload` and `bufLen`, and close the same containers; each run uses
an answer of the driver in the send it belongs to and not again (`driver_failures`).
-/

namespace CanTsn

open ByteBlock Packer StepMachine

/-- Two rounds with the same queue result and the same gate result. -/
structure SameButDriver (i j : GwInput) : Prop where
  queue : i.queue = j.queue
  gateOpen : i.gateOpen = j.gateOpen

/-- Two loop states, of tasks that found `u` and `v` in their uninitialised variables,
with the same packing. -/
structure Agree (u v : UninitLocals) (s t : GwState) : Prop where
  containerPending : s.containerPending = t.containerPending
  containerLen : s.containerLen = t.containerLen
  bytes : s.currentContainer.upto s.containerLen.toNat = t.currentContainer.upto t.containerLen.toNat
  iPduCount : s.iPduCount = t.iPduCount
  currentTC : s.currentTC = t.currentTC
  hasOverflowPdu : s.hasOverflowPdu = t.hasOverflowPdu
  overflowPdu : s.hasOverflowPdu = true ∨ u.overflowPdu = v.overflowPdu → s.overflowPdu = t.overflowPdu
  currentContainer : u.currentContainer = v.currentContainer → s.currentContainer = t.currentContainer

/-- The events of the send section, in order: a refused request is followed by the reset; a
granted buffer by the copy into it, one transmit request with its index, and the reset.
The container closed is the one that was offered. -/
inductive WellSent : List GwEvent → Prop
  | nil : WellSent []
  | refused {c : ClosedContainer} {tr : List GwEvent} (lenByte : UInt16) (code : BufReqError) (bufLen : UInt16)
      (h : WellSent tr) : WellSent (.provided c.fifoIdx lenByte (.refused code bufLen) :: .closed c :: tr)
  | granted {c : ClosedContainer} {tr : List GwEvent} (lenByte bufLen containerLen : UInt16)
      (bufIdx ethPayload : UInt32) (ok : Bool) (h : WellSent tr) :
      WellSent (.provided c.fifoIdx lenByte (.granted bufIdx ethPayload bufLen) ::
        .copied ethPayload bufLen c.bytes :: .transmitted bufIdx containerLen ok :: .closed c :: tr)

/-! ## The sections on agreeing states -/

variable {u v : UninitLocals} {s t : GwState} {i j : GwInput}

theorem agree_start (u v : UninitLocals) : Agree u v (GwState.start u) (GwState.start v) where
  containerPending := rfl
  containerLen := rfl
  bytes := rfl
  iPduCount := rfl
  currentTC := rfl
  hasOverflowPdu := rfl
  overflowPdu := by
    rintro (h | h)
    · cases h
    · exact h
  currentContainer := id

theorem Agree.released (h : Agree u v s t) :
    Agree u v { s with hasOverflowPdu := false } { t with hasOverflowPdu := false } where
  containerPending := h.containerPending
  containerLen := h.containerLen
  bytes := h.bytes
  iPduCount := h.iPduCount
  currentTC := h.currentTC
  hasOverflowPdu := rfl
  overflowPdu := by
    rintro (ho | ho)
    · cases ho
    · exact h.overflowPdu (Or.inr ho)
  currentContainer := h.currentContainer

theorem Agree.taken_eq (h : Agree u v s t) (hq : i.queue = j.queue) : taken s i = taken t j := by
  unfold taken
  rw [← h.hasOverflowPdu, hq]
  split
  · next hov => rw [h.overflowPdu (Or.inl hov)]
  · rfl

theorem Agree.startContainer (h : Agree u v s t) (msgTC : UInt8) :
    Agree u v (startContainer s msgTC).1 (startContainer t msgTC).1 := by
  unfold CanTsn.startContainer
  rw [← h.containerPending]
  split
  · exact h
  · refine ⟨rfl, rfl, ?_, rfl, rfl, h.hasOverflowPdu, h.overflowPdu, fun hu => ?_⟩
    · exact (upto_header s.currentContainer).trans (upto_header t.currentContainer).symm
    · simp only [h.currentContainer hu]

/-- Adding a record, byte by byte, behind the same bytes. -/
theorem upto_record_congr {b b' : Block UInt8 containerMaxSize} {off : Nat} (x y z count : UInt8)
    (data : List UInt8) (hroom : off + (3 + data.length) ≤ containerMaxSize) (hb : b.upto off = b'.upto off) :
    (((((b.store (off + 0) x).store (off + 1) y).store (off + 2) z).memcpy (off + 3) data).store 1
        count).upto (off + (3 + data.length)) =
      (((((b'.store (off + 0) x).store (off + 1) y).store (off + 2) z).memcpy (off + 3) data).store 1
        count).upto (off + (3 + data.length)) := by
  have hlen : (x :: y :: z :: data).length = 3 + data.length := by
    simp only [List.length_cons]
    omega
  rw [stores_eq_memcpy, stores_eq_memcpy, Block.upto_store, Block.upto_store, ← hlen,
    Block.upto_memcpy _ _ _ (by rw [hlen]; exact hroom),
    Block.upto_memcpy _ _ _ (by rw [hlen]; exact hroom), hb]

theorem Agree.addPdu (h : Agree u v s t) {r : RoutedPdu}
    (hread : r.msg.readData i.beyond = r.msg.readData j.beyond) :
    Agree u v (addPdu s i r).1 (addPdu t j r).1 := by
  have hreq := toNat_requiredSpace r
  have hbytes := h.bytes
  rw [← h.containerLen] at hbytes
  unfold CanTsn.addPdu
  simp only [← h.containerLen, ← hread]
  split
  · next hfit =>
    rw [hreq] at hfit
    have hmax : containerMaxSize = 1536 := rfl
    have hlen : (s.containerLen + (gwIPduHdrSize + r.msg.dataLen.toUInt16)).toNat =
        s.containerLen.toNat + (3 + (r.msg.readData i.beyond).length) := by
      rw [UInt16.toNat_add, hreq, r.msg.length_readData, ← RoutedPdu.size]
      omega
    refine ⟨h.containerPending, rfl, ?_, ?_, ?_, h.hasOverflowPdu, h.overflowPdu, fun hu => ?_⟩
    · simp only [hlen, h.iPduCount]
      refine upto_record_congr _ _ _ _ _ ?_ hbytes
      rw [r.msg.length_readData, ← RoutedPdu.size]
      omega
    · simp only [h.iPduCount]
    · simp only [h.currentTC]
    · simp only [h.currentContainer hu, h.iPduCount]
  · exact ⟨h.containerPending, rfl, hbytes, h.iPduCount, h.currentTC, rfl, fun _ => rfl, h.currentContainer⟩

theorem Agree.shouldTransmit_eq (h : Agree u v s t) (gateOpen : Bool) :
    shouldTransmit s gateOpen = shouldTransmit t gateOpen := by
  unfold shouldTransmit
  rw [h.containerPending, h.containerLen, h.hasOverflowPdu]

theorem Agree.sendPhase (h : Agree u v s t) (hgate : i.gateOpen = j.gateOpen) :
    Agree u v (sendPhase s i).1 (sendPhase t j).1 ∧
      closings (sendPhase s i).2 = closings (sendPhase t j).2 := by
  unfold CanTsn.sendPhase
  rw [h.shouldTransmit_eq i.gateOpen, ← hgate]
  cases shouldTransmit t i.gateOpen with
  | none => exact ⟨h, rfl⟩
  | some cause =>
    -- what the driver answers goes into its outputs and the statistics only
    obtain ⟨hov, hhas, hcont, htc⟩ := driverCalls_state s i
    obtain ⟨hov', hhas', hcont', htc'⟩ := driverCalls_state t j
    unfold sendContainer
    constructor
    · refine ⟨rfl, rfl, rfl, rfl, ?_, ?_, ?_, ?_⟩
      · rw [htc, htc', h.currentTC]
      · rw [hhas, hhas', h.hasOverflowPdu]
      · rw [hov, hov', hhas]
        exact h.overflowPdu
      · rw [hcont, hcont']
        exact h.currentContainer
    · rw [closings_append, closings_append, (trace_driverCalls s i).2.1, (trace_driverCalls t j).2.1,
        h.bytes, h.currentTC]

/-! ## Rounds and runs -/

/-- The queue hands out messages that meet `Q`, from which both rounds read the same. -/
structure SameData (Q : FlexcanIpMsgBuff → Prop) (i j : GwInput) : Prop where
  queued : ∀ m, i.queue = some m → Q m
  read : ∀ m, Q m → m.readData i.beyond = m.readData j.beyond

/-- Agreeing states with a message that meets `Q` in the overflow slot. -/
def AgreeOn (Q : FlexcanIpMsgBuff → Prop) (u v : UninitLocals) (s t : GwState) : Prop :=
  Agree u v s t ∧ (s.hasOverflowPdu = true → Q s.overflowPdu)

theorem taken_meets {Q : FlexcanIpMsgBuff → Prop} (hov : s.hasOverflowPdu = true → Q s.overflowPdu)
    (hqueued : ∀ m, i.queue = some m → Q m) {m : FlexcanIpMsgBuff} (hm : taken s i = some m) : Q m := by
  unfold taken at hm
  split at hm
  · next ho =>
    obtain rfl := Option.some.inj hm
    exact hov ho
  · exact hqueued m hm

/-- The overflow slot after section 2. -/
theorem held_addPdu {r : RoutedPdu} (hov : s.hasOverflowPdu = false)
    (h : (addPdu s i r).1.hasOverflowPdu = true) : (addPdu s i r).1.overflowPdu = r.msg := by
  unfold addPdu at h ⊢
  simp only at h ⊢
  split
  · next hfit =>
    rw [if_pos hfit] at h
    exact absurd (hov.symm.trans h) Bool.false_ne_true
  · rfl

theorem hasOverflowPdu_startContainer (s : GwState) (msgTC : UInt8) :
    (startContainer s msgTC).1.hasOverflowPdu = s.hasOverflowPdu := by
  unfold startContainer
  split <;> rfl

theorem held_round {map : List CanIdToPduId} {Q : FlexcanIpMsgBuff → Prop} {s₁ : GwState} {es : List GwEvent}
    (hov : s.hasOverflowPdu = true → Q s.overflowPdu) (hqueued : ∀ m, i.queue = some m → Q m)
    (hs : ethPduSendTas map s i = some (s₁, es)) : s₁.hasOverflowPdu = true → Q s₁.overflowPdu := by
  intro hov₁
  rcases ethPduSendTas_cases hs with ⟨-, rfl, -⟩ | ⟨m, -, -, rfl, -⟩ |
    ⟨m, r, s₂, s₃, hm, hr, rfl, rfl, rfl, -⟩
  · rw [(sendPhase_state _ i).2.1] at hov₁
    cases hov₁
  · cases hov₁
  · obtain ⟨hover, hhas, -⟩ := sendPhase_state (addPdu
      (startContainer { s with hasOverflowPdu := false } r.msgTC).1 i r).1 i
    rw [hhas] at hov₁
    rw [hover, held_addPdu (hasOverflowPdu_startContainer _ _) hov₁, route_msg hr]
    exact taken_meets hov hqueued hm

theorem agree_round {map : List CanIdToPduId} {Q : FlexcanIpMsgBuff → Prop} {s₁ : GwState} {es : List GwEvent}
    (h : AgreeOn Q u v s t) (hin : SameButDriver i j) (hdata : SameData Q i j)
    (hs : ethPduSendTas map s i = some (s₁, es)) :
    ∃ t₁ es', ethPduSendTas map t j = some (t₁, es') ∧ AgreeOn Q u v s₁ t₁ ∧ closings es = closings es' := by
  obtain ⟨h, hov⟩ := h
  have htaken := h.taken_eq hin.queue
  obtain ⟨t₁, es', ht⟩ : ∃ t₁ es', ethPduSendTas map t j = some (t₁, es') := by
    refine ethPduSendTas_comes_back fun m hm hl => ?_
    rw [ethPduSendTas_eq_none_iff.2 ⟨m, htaken.trans hm, hl⟩] at hs
    cases hs
  suffices hpack : Agree u v s₁ t₁ ∧ closings es = closings es' from
    ⟨t₁, es', ht, ⟨hpack.1, held_round hov hdata.queued hs⟩, hpack.2⟩
  rcases ethPduSendTas_cases hs with ⟨hm, rfl, rfl⟩ | ⟨m, hm, hr, rfl, rfl⟩ |
    ⟨m, r, _, _, hm, hr, rfl, rfl, rfl, rfl⟩
  · -- nothing to process
    rcases ethPduSendTas_cases ht with ⟨-, rfl, rfl⟩ | ⟨m', hm', -⟩ | ⟨m', r', _, _, hm', -⟩
    · obtain ⟨hsend, hclosed⟩ := h.released.sendPhase hin.gateOpen
      refine ⟨hsend, ?_⟩
      rw [closings_append, closings_append, closings_receiveEvents, closings_receiveEvents, hclosed]
    all_goals cases (hm.symm.trans htaken).trans hm'
  · -- a message without a route
    rcases ethPduSendTas_cases ht with ⟨hm', -⟩ | ⟨m', hm', hr', rfl, rfl⟩ | ⟨m', r', _, _, hm', hr', -⟩
    · cases (hm.symm.trans htaken).trans hm'
    · refine ⟨h.released, ?_⟩
      rw [closings_append, closings_append, closings_receiveEvents, closings_receiveEvents]
      rfl
    · obtain rfl := Option.some.inj ((hm.symm.trans htaken).trans hm')
      cases hr.symm.trans hr'
  · -- a routed message
    rcases ethPduSendTas_cases ht with ⟨hm', -⟩ | ⟨m', hm', hr', -⟩ |
      ⟨m', r', _, _, hm', hr', rfl, rfl, rfl, rfl⟩
    · cases (hm.symm.trans htaken).trans hm'
    · obtain rfl := Option.some.inj ((hm.symm.trans htaken).trans hm')
      cases hr.symm.trans hr'
    · obtain rfl := Option.some.inj ((hm.symm.trans htaken).trans hm')
      obtain rfl := Option.some.inj (hr.symm.trans hr')
      have hread : r.msg.readData i.beyond = r.msg.readData j.beyond := by
        rw [route_msg hr]
        exact hdata.read m (taken_meets hov hdata.queued hm)
      have hloaded := (h.released.startContainer r.msgTC).addPdu hread
      obtain ⟨hsend, hclosed⟩ := hloaded.sendPhase hin.gateOpen
      refine ⟨hsend, ?_⟩
      simp only [closings_append, closings_receiveEvents, hclosed,
        closings_of_quiet (isSend_of_local (isLocal_startContainer _ _)),
        closings_of_quiet (isSend_of_local (isLocal_addPdu _ _ _)), List.nil_append]

theorem agree_run {map : List CanIdToPduId} {Q : FlexcanIpMsgBuff → Prop} {is js : List GwInput}
    {tr : List GwEvent}
    (hin : List.Forall₂ (fun i j => SameButDriver i j ∧ SameData Q i j) is js)
    (hrun : (gateway map).run (GwState.start u) is = some (s, tr)) :
    ∃ t tr', (gateway map).run (GwState.start v) js = some (t, tr') ∧ AgreeOn Q u v s t ∧
      closings tr = closings tr' := by
  refine (gateway map).run_related (AgreeOn Q u v) (fun i j => SameButDriver i j ∧ SameData Q i j)
    (fun tr tr' => closings tr = closings tr') rfl (fun es es' tr tr' he htr => ?_)
    (fun s t i j s₁ es h hij hs => agree_round h hij.1 hij.2 hs)
    ⟨agree_start u v, fun hov => Bool.noConfusion hov⟩ hin hrun
  rw [closings_append, closings_append, he, htr]

/-! ## The driver calls of a run -/

theorem WellSent.append {tr es : List GwEvent} (h : WellSent tr) (hes : WellSent es) :
    WellSent (tr ++ es) := by
  induction h with
  | nil => exact hes
  | refused lenByte code bufLen _ ih => exact .refused lenByte code bufLen ih
  | granted lenByte bufLen containerLen bufIdx ethPayload ok _ ih =>
    exact .granted lenByte bufLen containerLen bufIdx ethPayload ok ih

theorem wellSent_sendEvents (s : GwState) (i : GwInput) (cause : SendCause) :
    WellSent (sendEvents s i cause) := by
  unfold sendEvents bufferEvents
  cases i.provide with
  | refused code lenByte =>
    exact .refused (c := s.closedContainer cause) txBufferRequest code lenByte .nil
  | granted bufIdx ethPayload lenByte =>
    exact .granted (c := s.closedContainer cause) txBufferRequest lenByte s.containerLen bufIdx ethPayload
      i.transmitOk .nil

theorem filter_isSend_of_quiet {es : List GwEvent} (h : ∀ e ∈ es, e.isSend = false) :
    es.filter GwEvent.isSend = [] := List.filter_eq_nil_iff.2 fun e he hs => by rw [h e he] at hs; cases hs

theorem filter_isSend_sendEvents (s : GwState) (i : GwInput) (cause : SendCause) :
    (sendEvents s i cause).filter GwEvent.isSend = sendEvents s i cause := by
  unfold sendEvents bufferEvents
  cases i.provide <;> rfl

theorem wellSent_run {map : List CanIdToPduId} {is : List GwInput} {tr : List GwEvent}
    (hrun : (gateway map).run (GwState.start u) is = some (s, tr)) : WellSent (tr.filter GwEvent.isSend) := by
  refine ((gateway map).run_invariant_always
    (fun s tr => (∃ p, History map tr s p) ∧ WellSent (tr.filter GwEvent.isSend)) ?_
    ⟨⟨empty, history_start map u⟩, .nil⟩ hrun).2
  rintro s tr i s₁ es ⟨⟨p, h⟩, hsent⟩ hs
  refine ⟨⟨_, history_step h hs⟩, ?_⟩
  rw [List.filter_append]
  refine hsent.append ?_
  rcases round_offers h hs with ⟨-, hq⟩ | ⟨-, s₂, e₁, cause, -, hq, -, rfl⟩
  · rw [filter_isSend_of_quiet hq]
    exact .nil
  · rw [List.filter_append, filter_isSend_of_quiet hq, filter_isSend_sendEvents]
    exact wellSent_sendEvents s₂ i cause

/-! ## Two runs -/

/-- Started alike, agreeing states differ in the statistics and the driver's outputs. -/
theorem Agree.eq_of_same (h : Agree u u s t) : t = { s with
    canStats := t.canStats
    bufIdx := t.bufIdx
    ethPayload := t.ethPayload
    bufLen := t.bufLen } := by
  have hover := h.overflowPdu (Or.inr rfl)
  have hcont := h.currentContainer rfl
  rw [hover, h.hasOverflowPdu, hcont, h.containerLen, h.iPduCount, h.currentTC, h.containerPending]

theorem sameData_of_short (hshort : ShortInput i) (j : GwInput) : SameData (fun m => m.dataLen ≤ 64) i j where
  queued := hshort
  read := fun m hm => by rw [m.readData_eq_payload _ hm, m.readData_eq_payload _ hm]

theorem sameData_of_beyond (hbeyond : i.beyond = j.beyond) : SameData (fun _ => True) i j where
  queued := fun _ _ => trivial
  read := fun _ _ => by rw [hbeyond]

/-- **Driver failures do not disturb the packing.**  Two runs with the same queue and gate
results, whatever the driver answers: the second comes back if the first does, the
states agree and the same containers are offered.  Started alike, the states differ in
`canStats` and in the driver's outputs only; and in each run these are used in the send
that got them.  (A message of more than 64 bytes is read past its end: there the two
runs have to find the same bytes.) -/
theorem driver_failures (map : List CanIdToPduId) (u v : UninitLocals) (is js : List GwInput) (s : GwState)
    (tr : List GwEvent) (hin : List.Forall₂ SameButDriver is js)
    (hdata : (∀ i ∈ is, ShortInput i) ∨ List.Forall₂ (fun i j => i.beyond = j.beyond) is js)
    (hrun : (gateway map).run (GwState.start u) is = some (s, tr)) :
    ∃ t tr', (gateway map).run (GwState.start v) js = some (t, tr') ∧ Agree u v s t ∧
      closings tr = closings tr' ∧
      (u = v → t = { s with
        canStats := t.canStats
        bufIdx := t.bufIdx
        ethPayload := t.ethPayload
        bufLen := t.bufLen }) ∧
      WellSent (tr.filter GwEvent.isSend) ∧ WellSent (tr'.filter GwEvent.isSend) := by
  suffices hagree : ∃ t tr', (gateway map).run (GwState.start v) js = some (t, tr') ∧ Agree u v s t ∧
      closings tr = closings tr' by
    obtain ⟨t, tr', hrun', h, hclosed⟩ := hagree
    refine ⟨t, tr', hrun', h, hclosed, fun huv => ?_, wellSent_run hrun, wellSent_run hrun'⟩
    subst huv
    exact h.eq_of_same
  rcases hdata with hshort | hbeyond
  · have hin' : List.Forall₂ (fun i j => SameButDriver i j ∧ SameData (fun m => m.dataLen ≤ 64) i j) is js :=
      ((List.forall₂_and_left is js).2 ⟨hshort, hin⟩).imp fun i j h => ⟨h.2, sameData_of_short h.1 j⟩
    obtain ⟨t, tr', hrun', ⟨h, -⟩, hclosed⟩ := agree_run (u := u) (v := v) hin' hrun
    exact ⟨t, tr', hrun', h, hclosed⟩
  · have hin' : List.Forall₂ (fun i j => SameButDriver i j ∧ SameData (fun _ => True) i j) is js :=
      hin.mp (fun i j h hb => ⟨h, sameData_of_beyond hb⟩) hbeyond
    obtain ⟨t, tr', hrun', ⟨h, -⟩, hclosed⟩ := agree_run (u := u) (v := v) hin' hrun
    exact ⟨t, tr', hrun', h, hclosed⟩

/-- Two containers. -/
def grantedRounds : List GwInput :=
  [blankRound 2 false 0, blankRound 8 true 0, blankRound 64 false 0, blankRound 5 true 0x600]

/-- The first one without a buffer, the second one not accepted. -/
def refusedRounds : List GwInput :=
  [blankRound 2 false 0, { blankRound 8 true 0 with provide := .refused .busy 1518 },
    blankRound 64 false 0, { blankRound 5 true 0 with transmitOk := false }]

theorem driver_failures_refused :
    ∃ s tr t tr', (gateway canPduMap).run (GwState.start .zero) grantedRounds = some (s, tr) ∧
      (gateway canPduMap).run (GwState.start .zero) refusedRounds = some (t, tr') ∧
      Agree .zero .zero s t ∧ closings tr = closings tr' ∧ (closings tr).length = 2 ∧
      WellSent (tr'.filter GwEvent.isSend) := by
  obtain ⟨s, tr, hrun, hclosings⟩ : ∃ s tr, (gateway canPduMap).run (GwState.start .zero) grantedRounds =
      some (s, tr) ∧ (closings tr).length = 2 := ⟨_, _, rfl, rfl⟩
  obtain ⟨t, tr', hrun', hagree, hclosed, -, -, hsent⟩ := driver_failures canPduMap .zero .zero grantedRounds
    refusedRounds s tr
    (.cons ⟨rfl, rfl⟩ (.cons ⟨rfl, rfl⟩ (.cons ⟨rfl, rfl⟩ (.cons ⟨rfl, rfl⟩ .nil))))
    (Or.inr (.cons rfl (.cons rfl (.cons rfl (.cons rfl .nil))))) hrun
  exact ⟨s, tr, t, tr', hrun, hrun', hagree, hclosed, hclosings, hsent⟩

/-- The driver's outputs differ too: here the address of the granted buffer. -/
theorem not_only_canStats_differs :
    ¬ ∀ (map : List CanIdToPduId) (u : UninitLocals) (is js : List GwInput) (s t : GwState)
      (tr tr' : List GwEvent),
      List.Forall₂ SameButDriver is js → List.Forall₂ (fun i j => i.beyond = j.beyond) is js →
      (gateway map).run (GwState.start u) is = some (s, tr) →
      (gateway map).run (GwState.start u) js = some (t, tr') → t = { s with canStats := t.canStats } := by
  intro hall
  have hsame := hall canPduMap .zero [blankRound 2 true 0] [blankRound 2 true 0x100] _ _ _ _
    (.cons ⟨rfl, rfl⟩ .nil) (.cons rfl .nil) rfl rfl
  have haddr := congrArg GwState.ethPayload hsame
  exact absurd haddr (by decide)

end CanTsn
