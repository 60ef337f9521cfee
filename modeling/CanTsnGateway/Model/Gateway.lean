import CanTsnGateway.Lib.ByteBlock
import CanTsnGateway.Lib.StepMachine
import CanTsnGateway.Model.CanPduMap
import CanTsnGateway.Model.RxQueue
import CanTsnGateway.Model.TasGate

/-!
# The gateway task

One step is one round of the `for(;;)` loop of `ETH_PDU_Send_TAS`.  What the round gets
from outside is its input: the queue, the gate, the two Ethernet driver calls.  What it
does is its events, in program order.  The state is the loop's local variables and
`canStats`.  A round whose table lookup never returns is `none`.
-/

namespace CanTsn

open ByteBlock StepMachine

def containerMaxSize : Nat := 1536
def gwContainerVersion : UInt8 := 0x01
def gwContainerHdrSize : UInt16 := 2
def gwIPduHdrSize : UInt16 := 3
/-- `CONTAINER_MAX_SIZE-18`, as the request for a transmit buffer -/
def txBufferRequest : UInt16 := 1518

/-- The refusals of `BufReq_ReturnType`: `BUFREQ_E_NOT_OK`, `BUFREQ_E_BUSY`,
`BUFREQ_E_OVFL`. -/
inductive BufReqError where
  | notOk
  | busy
  | ovfl
deriving DecidableEq

/-- What `Eth_ProvideTxBuffer` answers.  `lenByte` is what it leaves in `*LenBytePtr`; the
other two outputs are written on success only. -/
inductive BufReq where
  | granted (bufIdx ethPayload : UInt32) (lenByte : UInt16)
  | refused (code : BufReqError) (lenByte : UInt16)
deriving DecidableEq

/-- Which of the three send conditions holds. -/
inductive SendCause where
  | overflow
  | full
  | gate
deriving DecidableEq

/-- A queued message with its I-PDU identifier and traffic class. -/
structure RoutedPdu where
  msg : FlexcanIpMsgBuff
  iPduId : UInt16
  msgTC : UInt8

/-- A container at the moment it is reset. -/
structure ClosedContainer where
  cause : SendCause
  currentTC : UInt8
  fifoIdx : UInt8
  /-- `currentContainer[0..containerLen)` -/
  bytes : List UInt8

inductive GwEvent where
  /-- `xQueueReceive` returned this message. -/
  | received (m : FlexcanIpMsgBuff)
  /-- No PDU identifier: `continue`. -/
  | ignored (m : FlexcanIpMsgBuff)
  /-- The operands of the fit test, with the length the second one is for. -/
  | fitTest (containerLen : UInt16) (iPduLen : UInt8) (requiredSpace : UInt16)
  /-- `currentContainer[off..off+n)` is written. -/
  | wrote (off n : Nat)
  /-- `rxData.data[0..n)` is read. -/
  | readData (n : Nat)
  | appended (r : RoutedPdu)
  | carried (r : RoutedPdu)
  /-- `Eth_ProvideTxBuffer` with its request and its answer. -/
  | provided (fifoIdx : UInt8) (lenByte : UInt16) (res : BufReq)
  /-- `memcpy` into the granted buffer, whose length was reported as `bufLen`. -/
  | copied (ethPayload : UInt32) (bufLen : UInt16) (bytes : List UInt8)
  /-- `Eth_Transmit` and whether it returned `E_OK`. -/
  | transmitted (bufIdx : UInt32) (lenByte : UInt16) (ok : Bool)
  | closed (c : ClosedContainer)

structure GwState where
  overflowPdu : FlexcanIpMsgBuff
  hasOverflowPdu : Bool
  currentContainer : Block UInt8 containerMaxSize
  containerLen : UInt16
  iPduCount : UInt8
  currentTC : UInt8
  containerPending : Bool
  bufIdx : UInt32
  ethPayload : UInt32
  bufLen : UInt16
  canStats : CanStatistics

/-- The local variables the task does not initialise: any values. -/
structure UninitLocals where
  overflowPdu : FlexcanIpMsgBuff
  currentContainer : Block UInt8 containerMaxSize
  bufIdx : UInt32
  ethPayload : UInt32
  bufLen : UInt16

def UninitLocals.zero : UninitLocals := ⟨.zero, .fill _ 0, 0, 0, 0⟩

/-- The state before the first round. -/
def GwState.start (u : UninitLocals) : GwState where
  overflowPdu := u.overflowPdu
  hasOverflowPdu := false
  currentContainer := u.currentContainer
  containerLen := 0
  iPduCount := 0
  currentTC := tcBestEffort
  containerPending := false
  bufIdx := u.bufIdx
  ethPayload := u.ethPayload
  bufLen := u.bufLen
  canStats := .zero

/-- What one round gets from outside. -/
structure GwInput where
  /-- result of `xQueueReceive`, if the round asks -/
  queue : Option FlexcanIpMsgBuff
  /-- the memory after `rxData.data` -/
  beyond : Nat → UInt8
  /-- result of `TAS_IsGateOpen_FIFOx(0)` -/
  gateOpen : Bool
  /-- result of `Eth_ProvideTxBuffer` -/
  provide : BufReq
  /-- `Eth_Transmit` returns `E_OK` -/
  transmitOk : Bool

/-- A round in which the driver grants the buffer at `ethPayload` and accepts the frame. -/
def GwInput.granting (queue : Option FlexcanIpMsgBuff) (gateOpen : Bool) (ethPayload : UInt32) : GwInput :=
  ⟨queue, fun _ => 0, gateOpen, .granted 0 ethPayload 1522, true⟩

/-! ## The sections of the loop body -/

/-- Section 1: the carried PDU first, else the queue. -/
def pduSource (s : GwState) (i : GwInput) : Option FlexcanIpMsgBuff × GwState × List GwEvent :=
  if s.hasOverflowPdu then (some s.overflowPdu, { s with hasOverflowPdu := false }, [])
  else
    match i.queue with
    | some m => (some m, s, [.received m])
    | none => (none, s, [])

/-- Section 2, the start of a new container. -/
def startContainer (s : GwState) (msgTC : UInt8) : GwState × List GwEvent :=
  if s.containerPending then (s, [])
  else
    ({ s with
        currentContainer := (s.currentContainer.store 0 gwContainerVersion).store 1 0
        containerLen := gwContainerHdrSize
        iPduCount := 0
        currentTC := msgTC
        containerPending := true },
      [.wrote 0 1, .wrote 1 1])

/-- Section 2, the attempt to add the PDU.  The fit test is done in `int`. -/
def addPdu (s : GwState) (i : GwInput) (r : RoutedPdu) : GwState × List GwEvent :=
  let iPduLen := r.msg.dataLen
  let requiredSpace := gwIPduHdrSize + iPduLen.toUInt16
  let off := s.containerLen.toNat
  if off + requiredSpace.toNat ≤ containerMaxSize - 18 then
    let c := s.currentContainer.store (off + 0) (r.iPduId >>> 8).toUInt8
    let c := c.store (off + 1) (r.iPduId &&& 0xFF).toUInt8
    let c := c.store (off + 2) iPduLen
    let c := c.memcpy (off + 3) (r.msg.readData i.beyond)
    let iPduCount := s.iPduCount + 1
    ({ s with
        currentContainer := c.store 1 iPduCount
        containerLen := s.containerLen + requiredSpace
        iPduCount := iPduCount
        currentTC := if r.msgTC < s.currentTC then r.msgTC else s.currentTC },
      [.fitTest s.containerLen iPduLen requiredSpace, .wrote off 1, .wrote (off + 1) 1, .wrote (off + 2) 1,
        .readData iPduLen.toNat, .wrote (off + 3) iPduLen.toNat, .wrote 1 1, .appended r])
  else
    ({ s with overflowPdu := r.msg, hasOverflowPdu := true },
      [.fitTest s.containerLen iPduLen requiredSpace, .carried r])

/-- Section 3: `shouldTransmit`, with the condition that made it true. -/
def shouldTransmit (s : GwState) (gateOpen : Bool) : Option SendCause :=
  if s.containerPending ∧ s.containerLen > gwContainerHdrSize then
    if s.hasOverflowPdu then some .overflow
    else if s.containerLen.toNat ≥ containerMaxSize - 18 then some .full
    else if gateOpen ∧ s.containerLen ≥ 2 then some .gate
    else none
  else none

/-- Section 4, the two driver calls. -/
def driverCalls (s : GwState) (i : GwInput) : GwState × List GwEvent :=
  let fifoIdx := tcToFifo s.currentTC
  let bytes := s.currentContainer.upto s.containerLen.toNat
  match i.provide with
  | .granted bufIdx ethPayload lenByte =>
    let stats := if i.transmitOk then
        { s.canStats with containersSent := s.canStats.containersSent + 1 }
      else { s.canStats with ethTxErrors := s.canStats.ethTxErrors + 1 }
    ({ s with bufIdx := bufIdx, ethPayload := ethPayload, bufLen := lenByte, canStats := stats },
      [.provided fifoIdx txBufferRequest i.provide, .copied ethPayload lenByte bytes,
        .transmitted bufIdx s.containerLen i.transmitOk])
  | .refused _ lenByte =>
    ({ s with
        bufLen := lenByte
        canStats := { s.canStats with ethBufferErrors := s.canStats.ethBufferErrors + 1 } },
      [.provided fifoIdx txBufferRequest i.provide])

/-- Section 4: offer the container to the driver and reset it, whatever the driver says. -/
def sendContainer (s : GwState) (i : GwInput) (cause : SendCause) : GwState × List GwEvent :=
  let d := driverCalls s i
  ({ d.1 with containerPending := false, containerLen := 0, iPduCount := 0 },
    d.2 ++ [.closed ⟨cause, s.currentTC, tcToFifo s.currentTC,
      s.currentContainer.upto s.containerLen.toNat⟩])

/-- Sections 3 and 4. -/
def sendPhase (s : GwState) (i : GwInput) : GwState × List GwEvent :=
  match shouldTransmit s i.gateOpen with
  | some cause => sendContainer s i cause
  | none => (s, [])

/-- One round of `ETH_PDU_Send_TAS`. -/
def ethPduSendTas (map : List CanIdToPduId) (s : GwState) (i : GwInput) :
    Option (GwState × List GwEvent) :=
  let (src, s₁, e₁) := pduSource s i
  match src with
  | none =>
    let (s₂, e₂) := sendPhase s₁ i
    some (s₂, e₁ ++ e₂)
  | some m =>
    match gwGetPduIdFromCanFd map m.msgId tcBestEffort with
    | none => none
    | some (iPduId, msgTC) =>
      if iPduId = pduIdNone then some (s₁, e₁ ++ [.ignored m])
      else
        let (s₂, e₂) := startContainer s₁ msgTC
        let (s₃, e₃) := addPdu s₂ i ⟨m, iPduId, msgTC⟩
        let (s₄, e₄) := sendPhase s₃ i
        some (s₄, e₁ ++ e₂ ++ e₃ ++ e₄)

def gateway (map : List CanIdToPduId) : Machine GwState GwInput GwEvent := ⟨ethPduSendTas map⟩

/-! ## Reading the trace -/

/-- The messages taken from the queue. -/
def received (tr : List GwEvent) : List FlexcanIpMsgBuff :=
  tr.filterMap fun e => match e with
    | .received m => some m
    | _ => none

/-- The containers closed. -/
def closings (tr : List GwEvent) : List ClosedContainer :=
  tr.filterMap fun e => match e with
    | .closed c => some c
    | _ => none

/-- The messages without a PDU identifier. -/
def ignored (tr : List GwEvent) : List FlexcanIpMsgBuff :=
  tr.filterMap fun e => match e with
    | .ignored m => some m
    | _ => none

@[simp] theorem received_append (tr es : List GwEvent) :
    received (tr ++ es) = received tr ++ received es := List.filterMap_append

@[simp] theorem closings_append (tr es : List GwEvent) :
    closings (tr ++ es) = closings tr ++ closings es := List.filterMap_append

@[simp] theorem ignored_append (tr es : List GwEvent) :
    ignored (tr ++ es) = ignored tr ++ ignored es := List.filterMap_append

/-- The table's answer for a message. -/
def route (map : List CanIdToPduId) (m : FlexcanIpMsgBuff) : Option RoutedPdu :=
  match gwGetPduIdFromCanFd map m.msgId tcBestEffort with
  | some (iPduId, msgTC) => if iPduId = pduIdNone then none else some ⟨m, iPduId, msgTC⟩
  | none => none

/-- The PDU a routed message becomes. -/
def RoutedPdu.toPdu (r : RoutedPdu) : Pdu := ⟨r.iPduId, r.msg.payload, r.msg.length_payload_lt⟩

/-- The space a routed message takes in a container. -/
def RoutedPdu.size (r : RoutedPdu) : Nat := 3 + r.msg.dataLen.toNat

/-! ## What a round can do -/

/-- The message a round works on. -/
def taken (s : GwState) (i : GwInput) : Option FlexcanIpMsgBuff :=
  if s.hasOverflowPdu then some s.overflowPdu else i.queue

/-- The queue's part of the events of a round. -/
def receiveEvents (s : GwState) (i : GwInput) : List GwEvent :=
  if s.hasOverflowPdu then [] else match i.queue with
    | some m => [.received m]
    | none => []

theorem taken_of_overflow {s : GwState} (hov : s.hasOverflowPdu = true) (i : GwInput) :
    taken s i = some s.overflowPdu := if_pos hov

theorem taken_of_no_overflow {s : GwState} (hov : s.hasOverflowPdu = false) (i : GwInput) :
    taken s i = i.queue := by
  unfold taken
  rw [hov, if_neg Bool.false_ne_true]

theorem released_eq {s : GwState} (hov : s.hasOverflowPdu = false) :
    { s with hasOverflowPdu := false } = s := by rw [← hov]

theorem pduSource_eq (s : GwState) (i : GwInput) :
    pduSource s i = (taken s i, { s with hasOverflowPdu := false }, receiveEvents s i) := by
  unfold pduSource taken receiveEvents
  cases hov : s.hasOverflowPdu with
  | true => rfl
  | false =>
    rw [released_eq hov]
    cases i.queue <;> rfl

/-- A round does not come back if and only if its table lookup does not. -/
theorem ethPduSendTas_eq_none_iff {map : List CanIdToPduId} {s : GwState} {i : GwInput} :
    ethPduSendTas map s i = none ↔
      ∃ m, taken s i = some m ∧ gwGetPduIdFromCanFd map m.msgId tcBestEffort = none := by
  unfold ethPduSendTas
  rw [pduSource_eq]
  cases taken s i with
  | none => simp
  | some m =>
    cases hl : gwGetPduIdFromCanFd map m.msgId tcBestEffort with
    | none => simp [hl]
    | some a =>
      simp only [hl, Option.some.injEq, exists_eq_left', reduceCtorEq, iff_false]
      split <;> exact Option.some_ne_none _

theorem ethPduSendTas_comes_back {map : List CanIdToPduId} {s : GwState} {i : GwInput}
    (h : ∀ m, taken s i = some m → gwGetPduIdFromCanFd map m.msgId tcBestEffort ≠ none) :
    ∃ s₁ es, ethPduSendTas map s i = some (s₁, es) := by
  cases hs : ethPduSendTas map s i with
  | none =>
    obtain ⟨m, hm, hl⟩ := ethPduSendTas_eq_none_iff.1 hs
    exact absurd hl (h m hm)
  | some r => exact ⟨r.1, r.2, rfl⟩

/-- **A round** finds nothing to process, ignores a message, or adds a routed message. -/
theorem ethPduSendTas_cases {map : List CanIdToPduId} {s s' : GwState} {i : GwInput}
    {es : List GwEvent} (h : ethPduSendTas map s i = some (s', es)) :
    (taken s i = none ∧ s' = (sendPhase { s with hasOverflowPdu := false } i).1 ∧
      es = receiveEvents s i ++ (sendPhase { s with hasOverflowPdu := false } i).2) ∨
    (∃ m, taken s i = some m ∧ route map m = none ∧ s' = { s with hasOverflowPdu := false } ∧
      es = receiveEvents s i ++ [.ignored m]) ∨
    (∃ m r s₂ s₃, taken s i = some m ∧ route map m = some r ∧
      s₂ = startContainer { s with hasOverflowPdu := false } r.msgTC ∧ s₃ = addPdu s₂.1 i r ∧
      s' = (sendPhase s₃.1 i).1 ∧
      es = receiveEvents s i ++ s₂.2 ++ s₃.2 ++ (sendPhase s₃.1 i).2) := by
  unfold ethPduSendTas at h
  rw [pduSource_eq] at h
  simp only at h
  cases hm : taken s i with
  | none =>
    rw [hm] at h
    simp only [Option.some.injEq, Prod.mk.injEq] at h
    exact Or.inl ⟨rfl, h.1.symm, h.2.symm⟩
  | some m =>
    rw [hm] at h
    simp only at h
    refine Or.inr ?_
    have hroute : route map m = match gwGetPduIdFromCanFd map m.msgId tcBestEffort with
      | some (iPduId, msgTC) => if iPduId = pduIdNone then none else some ⟨m, iPduId, msgTC⟩
      | none => none := rfl
    cases hl : gwGetPduIdFromCanFd map m.msgId tcBestEffort with
    | none => rw [hl] at h; cases h
    | some a =>
      obtain ⟨iPduId, msgTC⟩ := a
      rw [hl] at h hroute
      simp only at h hroute
      split at h
      · next hnone =>
        rw [if_pos hnone] at hroute
        simp only [Option.some.injEq, Prod.mk.injEq] at h
        exact Or.inl ⟨m, rfl, hroute, h.1.symm, h.2.symm⟩
      · next hsome =>
        rw [if_neg hsome] at hroute
        simp only [Option.some.injEq, Prod.mk.injEq] at h
        exact Or.inr ⟨m, _, _, _, rfl, hroute, rfl, rfl, h.1.symm, h.2.symm⟩

end CanTsn
