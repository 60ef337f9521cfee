import CanTsnGateway.Model.FlexCan
import CanTsnGateway.Model.Mailbox

/-!
# The driver on its controllers

`canReceivePollingTask` has a frame in a message buffer; here a message buffer is bytes in
the RAM of a controller, with a flag.  `canNode` has the steps of the polling task, the
calls that send a frame, and the controllers, which write to the RAM as well.
-/

namespace CanTsn

open BoundedQueue ByteMemory StepMachine

/-- `Flexcan_Ip_DataInfoType` -/
structure DataInfo where
  msgIdType : MsgBuffIdType
  dataLength : UInt32
  fdEnable : Bool
  fdPadding : UInt8
  enableBrs : Bool
  isRemote : Bool
  isPolling : Bool
deriving DecidableEq

/-- `tx_info` after `FlexCAN_init_SKKU` -/
def txInfo : DataInfo := ⟨.msgIdStd, 64, true, 1, true, false, true⟩

/-- `rx_info` after `FlexCAN_init_SKKU` -/
def rxInfo : DataInfo := ⟨.msgIdStd, 64, true, 1, true, false, true⟩

/-- The driver and the tasks (`rx`, whose `available` is not used), `isRemote` of `mbs[]`,
and of each instance the RAM and the flags. -/
structure CanNode where
  rx : RxState
  isRemote : UInt8 → UInt8 → Bool
  ram : UInt8 → Memory
  iflag : UInt8 → UInt8 → Bool

namespace CanNode

def setRam (s : CanNode) (inst : UInt8) (m : Memory) : CanNode :=
  { s with ram := fun i => if i = inst then m else s.ram i }

def setFlag (s : CanNode) (inst mb : UInt8) (flag : Bool) : CanNode :=
  { s with iflag := fun i b => if i = inst ∧ b = mb then flag else s.iflag i b }

/-- `mbs[mb_idx].state` and `.isRemote`, `.isPolling` of a request -/
def setBusy (s : CanNode) (inst mb : UInt8) (info : DataInfo) : CanNode :=
  { s with
    rx := s.rx.setMb inst mb { s.rx.mbs inst mb with state := .txBusy, isPolling := info.isPolling }
    isRemote := fun i b => if i = inst ∧ b = mb then info.isRemote else s.isRemote i b }

end CanNode

/-- `cs` of `FlexCAN_StartSendData` -/
def DataInfo.codeStatus (info : DataInfo) : MsbuffCodeStatus where
  code := if info.isRemote then txRemote else txData
  msgIdType := info.msgIdType
  dataLen := info.dataLength
  fdEnable := info.fdEnable
  fdPadding := info.fdPadding
  enableBrs := info.enableBrs

/-- The frame in a message buffer that has been read. -/
def CanFrame.ofMsgBuff (m : FlexcanIpMsgBuff) : CanFrame where
  msgId := m.msgId
  data := m.data.take m.dataLen.toNat
  length_le := by
    rw [List.length_take, m.length_data]
    exact Nat.min_le_right _ _

inductive CanEvent where
  | rx (e : RxEvent)
  /-- A call of `FlexCAN_Ip_Send` and what it returns. -/
  | send (inst mb : UInt8) (info : DataInfo) (msgId : UInt32) (mbData : Option (List UInt8))
      (result : FlexcanIpStatus)
  /-- `FLEXCAN_EVENT_TX_COMPLETE` -/
  | txComplete (inst mb : UInt8)
  /-- The controller has sent the frame of a message buffer. -/
  | onBus (inst mb : UInt8) (frame : BusFrame)

namespace CanNode

/-! ## The driver -/

/-- `FlexCAN_StartSendData`; a failed `DevAssert` does not come back. -/
def flexcanStartSendData (t : UInt8 → FlexcanType) (s : CanNode) (inst mb : UInt8) (info : DataInfo) (msgId : UInt32)
    (mbData : Option (List UInt8)) : Option (FlexcanIpStatus × CanNode) :=
  if info.dataLength.toUInt8 ≤ flexcanGetMbPayloadSize (t inst) mb.toUInt32 then
    if flexcanIsMbOutOfRange mb then some (.buffOutOfRange, s)
    else if (s.rx.mbs inst mb).state ≠ .idle then some (.busy, s)
    else
      let s := (s.setFlag inst mb false).setBusy inst mb info
      let pMbAddr := flexcanGetMsgBuffRegion (t inst) mb.toUInt32
      some (.success,
        s.setRam inst (flexcanSetTxMsgBuff (s.ram inst) pMbAddr info.codeStatus msgId mbData false))
  else none

/-- `FlexCAN_Ip_Send`, with the controller not in listen-only mode -/
def flexcanIpSend (t : UInt8 → FlexcanType) (s : CanNode) (inst mb : UInt8) (info : DataInfo) (msgId : UInt32)
    (mbData : Option (List UInt8)) : Option (FlexcanIpStatus × CanNode) :=
  (flexcanStartSendData t s inst mb info msgId mbData).map fun r =>
    if r.1 = .success ∧ info.isPolling = false then (r.1, { r.2 with rx := flexcanSetMsgBuffIntCmd r.2.rx inst mb true })
    else r

/-- `FlexCAN_Ip_MainFunctionWrite`; the callback does nothing for `FLEXCAN_EVENT_TX_COMPLETE`. -/
def flexcanIpMainFunctionWrite (t : UInt8 → FlexcanType) (s : CanNode) (inst mb : UInt8) : CanNode × List CanEvent :=
  if s.iflag inst mb then
    let h := s.rx.mbs inst mb
    if h.state = .txBusy then
      let s :=
        if s.isRemote inst mb then
          if mbCode (s.ram inst) (flexcanGetMsgBuffRegion (t inst) mb.toUInt32) = rxEmpty then s.setFlag inst mb false
          else s
        else s.setFlag inst mb false
      ({ s with rx := s.rx.setMb inst mb { h with state := .idle } }, [.txComplete inst mb])
    else (s, [])
  else (s, [])

/-- `FlexCAN_Ip_GetTransferStatus` of a message buffer -/
def flexcanIpGetTransferStatus (s : CanNode) (inst mb : UInt8) : FlexcanIpStatus :=
  if (s.rx.mbs inst mb).state = .idle then .success else .busy

/-- `FlexCAN_GetMsgBuff` into where `pMBmessage` of the mailbox points. -/
def flexcanGetMsgBuff (t : UInt8 → FlexcanType) (s : CanNode) (inst mb : UInt8) : FlexcanIpMsgBuff :=
  (flexcanGetMsgBuffRam (t inst) (s.ram inst) mb.toUInt32
    (s.rx.deref ((s.rx.mbs inst mb).pMBmessage.getD .handlerData))).msgBuff

/-- `FlexCAN_IRQHandlerRxMB` up to the callback -/
def readMsgBuff (t : UInt8 → FlexcanType) (s : CanNode) (inst mb : UInt8) : RxState :=
  let h := s.rx.mbs inst mb
  let p := h.pMBmessage.getD .handlerData
  (s.rx.store p (s.flexcanGetMsgBuff t inst mb)).setMb inst mb { h with pMBmessage := some p, state := .idle }

/-- `FlexCAN_IRQHandlerRxMB` -/
def flexcanIrqHandlerRxMb (t : UInt8 → FlexcanType) (s : CanNode) (inst mb : UInt8) : CanNode × List CanEvent :=
  let frame := CanFrame.ofMsgBuff (s.flexcanGetMsgBuff t inst mb)
  let rx := s.readMsgBuff t inst mb
  let bCurrentIntStat := (rx.mbs inst mb).isPolling
  let (sent, rx) := can0CallbackSkku rx inst mb
  ({ s.setFlag inst mb false with rx := disableAfterCallback rx inst mb bCurrentIntStat },
    [.rx (.rxComplete inst mb frame sent)])

/-- `FlexCAN_Ip_MainFunctionRead` -/
def flexcanIpMainFunctionRead (t : UInt8 → FlexcanType) (s : CanNode) (inst mb : UInt8) : CanNode × List CanEvent :=
  if s.iflag inst mb then
    if (s.rx.mbs inst mb).state = .rxBusy then flexcanIrqHandlerRxMb t s inst mb else (s, [])
  else (s, [])

/-! ## The steps -/

def poll (t : UInt8 → FlexcanType) (p : CanRxTaskParam) (s : CanNode) : CanNode × List CanEvent :=
  match p.pollOrder[s.rx.next]? with
  | none => (s, [])
  | some (inst, i) =>
    flexcanIpMainFunctionRead t { s with rx := { s.rx with next := (s.rx.next + 1) % p.pollOrder.length } } inst
      (p.mb inst i)

def queueReceive (s : CanNode) : CanNode × List CanEvent :=
  let (m, q) := receive s.rx.xQueueCan
  ({ s with rx := { s.rx with xQueueCan := q } }, m.toList.map fun m => .rx (.received m))

/-- The controller has put a frame into a message buffer. -/
def frameArrives (t : UInt8 → FlexcanType) (s : CanNode) (inst mb : UInt8) (frame : CanFrame) (ram : Memory) :
    CanNode × List CanEvent :=
  let lost := if s.iflag inst mb then some (CanFrame.ofMsgBuff (s.flexcanGetMsgBuff t inst mb)) else none
  ((s.setRam inst ram).setFlag inst mb true, [.rx (.arrived inst mb frame lost)])

/-- The controller has sent what is in a message buffer. -/
def frameSent (t : UInt8 → FlexcanType) (s : CanNode) (inst mb : UInt8) (ram : Memory) : CanNode × List CanEvent :=
  let frame := busFrame (s.ram inst) (flexcanGetMsgBuffRegion (t inst) mb.toUInt32)
  ((s.setRam inst ram).setFlag inst mb true, [.onBus inst mb frame])

end CanNode

inductive CanInput where
  /-- A frame comes into a message buffer; `ram` is the RAM then. -/
  | arrive (inst mb : UInt8) (frame : CanFrame) (ram : Memory)
  /-- The polling task polls its next mailbox. -/
  | poll
  /-- The gateway task calls `xQueueReceive`. -/
  | receive
  | send (inst mb : UInt8) (info : DataInfo) (msgId : UInt32) (mbData : Option (List UInt8))
  | mainFunctionWrite (inst mb : UInt8)
  /-- The frame of a message buffer has been sent; `ram` is the RAM then. -/
  | transmit (inst mb : UInt8) (ram : Memory)

def canNode (t : UInt8 → FlexcanType) (p : CanRxTaskParam) : Machine CanNode CanInput CanEvent where
  step s i :=
    match i with
    | .arrive inst mb frame ram => some (s.frameArrives t inst mb frame ram)
    | .poll => some (s.poll t p)
    | .receive => some s.queueReceive
    | .send inst mb info msgId mbData =>
      (s.flexcanIpSend t inst mb info msgId mbData).map fun r => (r.2, [.send inst mb info msgId mbData r.1])
    | .mainFunctionWrite inst mb => some (s.flexcanIpMainFunctionWrite t inst mb)
    | .transmit inst mb ram => some (s.frameSent t inst mb ram)

/-- The polling task polls the mailbox. -/
def CanRxTaskParam.Polls (p : CanRxTaskParam) (inst mb : UInt8) : Prop := ∃ i, (inst, i) ∈ p.pollOrder ∧ p.mb inst i = mb

/-- Frames come into polled message buffers.  From the others frames are sent, with as many
bytes as the request says and as the message buffer has room for; the controller sends what
is marked for sending. -/
def CanInput.Proper (t : UInt8 → FlexcanType) (p : CanRxTaskParam) (s : CanNode) : CanInput → Prop
  | .arrive inst mb frame ram =>
    p.Polls inst mb ∧ mb < maxMbNum ∧
      Delivers (s.ram inst) (flexcanGetMsgBuffRegion (t inst) mb.toUInt32)
        (flexcanGetMbPayloadSize (t inst) mb.toUInt32).toNat frame ram
  | .send inst mb info _ mbData =>
    ¬ p.Polls inst mb ∧ info.dataLength.toNat ≤ (flexcanGetMbPayloadSize (t inst) mb.toUInt32).toNat ∧
      ∃ bs, mbData = some bs ∧ bs.length = info.dataLength.toNat
  | .transmit inst mb ram =>
    ¬ p.Polls inst mb ∧ mb < maxMbNum ∧ mbCode (s.ram inst) (flexcanGetMsgBuffRegion (t inst) mb.toUInt32) = txData ∧
      Sends (s.ram inst) (flexcanGetMsgBuffRegion (t inst) mb.toUInt32) ram
  | .poll | .receive | .mainFunctionWrite _ _ => True

/-! ## The start -/

/-- `FlexCAN_Ip_ConfigRxMb` -/
def flexcanIpConfigRxMb (t : FlexcanType) (m : Memory) (mb : UInt8) (info : DataInfo) (msgId : UInt32) : Memory :=
  let region := flexcanGetMsgBuffRegion t mb.toUInt32
  let cs (code : UInt32) : MsbuffCodeStatus := { info.codeStatus with code := code }
  let m := flexcanSetRxMsgBuff m region (cs rxNotUsed) msgId
  let m := flexcanSetRxMsgBuff m region (cs rxInactive) msgId
  flexcanSetRxMsgBuff m region (cs rxEmpty) msgId

/-- The calls of `FlexCAN_Ip_ConfigRxMb` in `FlexCAN_init_SKKU`. -/
def rxMailboxes (inst : UInt8) : List (UInt8 × UInt32) :=
  if inst = 0 then [(0, 1), (1, 3)] else if inst = 1 then [(0, 2), (1, 4)] else []

/-- A controller's RAM after `FlexCAN_init_SKKU`, for a controller without a FIFO. -/
def flexcanInitSkku (t : FlexcanType) (inst : UInt8) (m : Memory) : Option Memory :=
  match flexcanSetMaxMsgBuffNum t m false maxMbNum.toUInt32 with
  | some (true, m) => some ((rxMailboxes inst).foldl (fun m r => flexcanIpConfigRxMb t m r.1 rxInfo r.2) m)
  | _ => none

def CanNode.start (p : CanRxTaskParam) (handlerData : FlexcanIpMsgBuff) (capacity : Nat) (ram : UInt8 → Memory) :
    CanNode :=
  ⟨.start p handlerData capacity, fun _ _ => false, ram, fun _ _ => false⟩

end CanTsn
