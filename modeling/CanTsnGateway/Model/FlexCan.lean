import CanTsnGateway.Lib.StepMachine
import CanTsnGateway.Model.RxQueue

/-!
# The polled receive path

The message buffers of a FlexCAN instance hold the frames of the bus; a set flag is a
frame in `available`.  `flexcanIpMainFunctionRead` copies such a frame to where the
mailbox's `pMBmessage` points and calls `CAN0_Callback_SKKU`, which arms the mailbox again
and sends `rxData` to the queue.  `canReceivePollingTask`: the steps of the polling task
after its initialisation, in any order with the bus and with the reader of the queue.
-/

namespace CanTsn

open BoundedQueue StepMachine

/-- `.max_num_mb` of both configurations; neither has a FIFO. -/
def maxMbNum : UInt8 := 16
/-- `FLEXCAN_IP_FEATURE_MAX_MB_NUM`, which `FlexCAN_Ip_MainFunctionRead` asserts. -/
def featureMaxMbNum : UInt8 := 128

/-- `Flexcan_Ip_MbStateType` -/
inductive FlexcanIpMbState where
  | idle
  | rxBusy
  | txBusy
deriving DecidableEq

inductive FlexcanIpStatus where
  | success
  | busy
  | buffOutOfRange
deriving DecidableEq

/-- A place that `pMBmessage` may point to. -/
inductive MsgBuffPtr where
  /-- `&rxShadow[i]` of the polling task -/
  | rxShadow (i : Nat)
  /-- `&rxData`, the global variable -/
  | rxData
  /-- `&data`, a local variable of the handler -/
  | handlerData
deriving DecidableEq

/-- `Flexcan_Ip_MBhandleType`, what a reception uses of it; `none` is `NULL_PTR`. -/
structure FlexcanIpMbHandle where
  pMBmessage : Option MsgBuffPtr
  state : FlexcanIpMbState
  isPolling : Bool
deriving DecidableEq

/-- `CanRxTaskParam_t`: two rows of four mailboxes, of which `mb_count` are polled. -/
structure CanRxTaskParam where
  mbList : List (List UInt8)
  mbCount : UInt8
  length_mbList : mbList.length = 2
  length_row : ∀ row ∈ mbList, row.length = 4
  mbCount_le : mbCount ≤ 4
  mb_lt : ∀ row ∈ mbList, ∀ mb ∈ row, mb < featureMaxMbNum

/-- `p->mb_list[inst][i]` -/
def CanRxTaskParam.mb (p : CanRxTaskParam) (inst : UInt8) (i : Nat) : UInt8 :=
  (p.mbList.getD inst.toNat []).getD i 0

/-- The pairs `inst`, `i` of the task's two nested loops. -/
def CanRxTaskParam.pollOrder (p : CanRxTaskParam) : List (UInt8 × Nat) :=
  [0, 1].flatMap fun inst => (List.range p.mbCount.toNat).map fun i => (inst, i)

/-- The parameters that `start_CAN` passes. -/
def rxp : CanRxTaskParam where
  mbList := [[0, 1, 0, 0], [0, 1, 0, 0]]
  mbCount := 2
  length_mbList := rfl
  length_row := by decide
  mbCount_le := by decide
  mb_lt := by simp [featureMaxMbNum]

structure RxState where
  /-- `mbs[]` of the state of each instance -/
  mbs : UInt8 → UInt8 → FlexcanIpMbHandle
  /-- `FlexCAN_Ip_au32ImaskBuff`, the bit of each mailbox -/
  imask : UInt8 → UInt8 → Bool
  /-- the frame in each message buffer whose flag is set -/
  available : UInt8 → UInt8 → Option CanFrame
  rxShadow : Nat → FlexcanIpMsgBuff
  rxData : FlexcanIpMsgBuff
  handlerData : FlexcanIpMsgBuff
  canStats : CanStatistics
  xQueueCan : BoundedQueue FlexcanIpMsgBuff
  /-- the task's next poll, a position in `pollOrder` -/
  next : Nat

namespace RxState

/-- After `FlexCAN_Ip_Init`, with what the stack holds where the handler's `data` will be. -/
def init (handlerData : FlexcanIpMsgBuff) (capacity : Nat) : RxState where
  mbs _ _ := ⟨none, .idle, true⟩
  imask _ _ := false
  available _ _ := none
  rxShadow _ := .zero
  rxData := .zero
  handlerData := handlerData
  canStats := .zero
  xQueueCan := BoundedQueue.empty capacity
  next := 0

def setMb (s : RxState) (inst mb : UInt8) (h : FlexcanIpMbHandle) : RxState :=
  { s with mbs := fun i m => if i = inst ∧ m = mb then h else s.mbs i m }

def setAvailable (s : RxState) (inst mb : UInt8) (f : Option CanFrame) : RxState :=
  { s with available := fun i m => if i = inst ∧ m = mb then f else s.available i m }

def deref (s : RxState) : MsgBuffPtr → FlexcanIpMsgBuff
  | .rxShadow i => s.rxShadow i
  | .rxData => s.rxData
  | .handlerData => s.handlerData

def store (s : RxState) (p : MsgBuffPtr) (m : FlexcanIpMsgBuff) : RxState :=
  match p with
  | .rxShadow i => { s with rxShadow := fun j => if j = i then m else s.rxShadow j }
  | .rxData => { s with rxData := m }
  | .handlerData => { s with handlerData := m }

end RxState

/-! ## The driver -/

/-- `FlexCAN_IsMbOutOfRange`, without a legacy FIFO -/
def flexcanIsMbOutOfRange (mb : UInt8) : Bool := mb ≥ maxMbNum

/-- `FlexCAN_SetMsgBuffIntCmd` -/
def flexcanSetMsgBuffIntCmd (s : RxState) (inst mb : UInt8) (enable : Bool) : RxState :=
  { s with imask := fun i m => if i = inst ∧ m = mb then enable else s.imask i m }

/-- `FlexCAN_StartRxMessageBufferData` -/
def flexcanStartRxMessageBufferData (s : RxState) (inst mb : UInt8) (data : MsgBuffPtr)
    (isPolling : Bool) : FlexcanIpStatus × RxState :=
  if flexcanIsMbOutOfRange mb then (.buffOutOfRange, s)
  else if (s.mbs inst mb).state ≠ .idle then (.busy, s)
  else (.success, s.setMb inst mb ⟨some data, .rxBusy, isPolling⟩)

/-- `FlexCAN_Ip_Receive` -/
def flexcanIpReceive (s : RxState) (inst mb : UInt8) (data : MsgBuffPtr) (isPolling : Bool) :
    FlexcanIpStatus × RxState :=
  let (result, s) := flexcanStartRxMessageBufferData s inst mb data isPolling
  if result = .success ∧ isPolling = false then (result, flexcanSetMsgBuffIntCmd s inst mb true)
  else (result, s)

/-- `FlexCAN_GetMsgBuff`: bytes of the destination past the frame's data stay. -/
def flexcanGetMsgBuff (m : FlexcanIpMsgBuff) (f : CanFrame) : FlexcanIpMsgBuff where
  msgId := f.msgId
  data := f.data ++ m.data.drop f.data.length
  dataLen := f.data.length.toUInt8
  length_data := by
    rw [List.length_append, List.length_drop, m.length_data]
    have := f.length_le
    omega

/-- A call of `xQueueSendFromISR`: the message behind its pointer, and whether the queue
took it. -/
structure QueueSend where
  item : FlexcanIpMsgBuff
  accepted : Bool

inductive RxEvent where
  /-- The driver has read the frame from the mailbox, and the callback has sent a message. -/
  | rxComplete (inst mb : UInt8) (frame : CanFrame) (sent : QueueSend)
  /-- A frame has come, over one that was not read if `lost` is one. -/
  | arrived (inst mb : UInt8) (frame : CanFrame) (lost : Option CanFrame)
  /-- `xQueueReceive` has taken the message. -/
  | received (m : FlexcanIpMsgBuff)

/-- `CAN0_Callback_SKKU` for `FLEXCAN_EVENT_RX_COMPLETE` -/
def can0CallbackSkku (s : RxState) (inst buffIdx : UInt8) : QueueSend × RxState :=
  let s :=
    if inst = 0 then (flexcanIpReceive s 0 buffIdx .rxData true).2
    else if inst = 1 then (flexcanIpReceive s 1 buffIdx .rxData true).2
    else s
  let (ok, canStats, q) := countAndSend s.canStats s.xQueueCan s.rxData
  (⟨s.rxData, ok⟩, { s with canStats := canStats, xQueueCan := q })

/-- `FlexCAN_IRQHandlerRxMB` up to the callback, with `f` in the message buffer. -/
def readMsgBuff (s : RxState) (inst mb : UInt8) (f : CanFrame) : RxState :=
  let h := s.mbs inst mb
  let p := h.pMBmessage.getD .handlerData
  let s := (s.store p (flexcanGetMsgBuff (s.deref p) f)).setAvailable inst mb none
  s.setMb inst mb { h with pMBmessage := some p, state := .idle }

/-- `FlexCAN_IRQHandlerRxMB` after the callback. -/
def disableAfterCallback (s : RxState) (inst mb : UInt8) (bCurrentIntStat : Bool) : RxState :=
  let h := s.mbs inst mb
  if h.state = .idle ∧ h.isPolling = false then
    flexcanSetMsgBuffIntCmd (s.setMb inst mb { h with isPolling := true }) inst mb false
  else if bCurrentIntStat = false ∧ h.isPolling then flexcanSetMsgBuffIntCmd s inst mb false
  else s

/-- `FlexCAN_IRQHandlerRxMB` -/
def flexcanIrqHandlerRxMb (s : RxState) (inst mb : UInt8) (f : CanFrame) : RxState × RxEvent :=
  let s := readMsgBuff s inst mb f
  let bCurrentIntStat := (s.mbs inst mb).isPolling
  let (sent, s) := can0CallbackSkku s inst mb
  (disableAfterCallback s inst mb bCurrentIntStat, .rxComplete inst mb f sent)

/-- `FlexCAN_Ip_MainFunctionRead` -/
def flexcanIpMainFunctionRead (s : RxState) (inst mb : UInt8) : RxState × List RxEvent :=
  match s.available inst mb with
  | none => (s, [])
  | some f =>
    if (s.mbs inst mb).state = .rxBusy then
      let (s, e) := flexcanIrqHandlerRxMb s inst mb f
      (s, [e])
    else (s, [])

/-! ## The task -/

/-- One turn of the initialisation loop. -/
def armShadow (p : CanRxTaskParam) (s : RxState) (r : UInt8 × Nat) : RxState :=
  (flexcanIpReceive s r.1 (p.mb r.1 r.2) (.rxShadow r.2) true).2

/-- The state after the initialisation loop. -/
def RxState.start (p : CanRxTaskParam) (handlerData : FlexcanIpMsgBuff) (capacity : Nat) : RxState :=
  p.pollOrder.foldl (armShadow p) (.init handlerData capacity)

inductive RxInput where
  /-- The bus delivers a frame to a message buffer. -/
  | arrive (inst mb : UInt8) (frame : CanFrame)
  /-- The task polls its next mailbox. -/
  | poll
  /-- The gateway task calls `xQueueReceive`. -/
  | receive

def frameArrives (s : RxState) (inst mb : UInt8) (frame : CanFrame) : RxState × List RxEvent :=
  (s.setAvailable inst mb (some frame), [.arrived inst mb frame (s.available inst mb)])

def poll (p : CanRxTaskParam) (s : RxState) : RxState × List RxEvent :=
  match p.pollOrder[s.next]? with
  | none => (s, [])
  | some (inst, i) =>
    flexcanIpMainFunctionRead { s with next := (s.next + 1) % p.pollOrder.length } inst (p.mb inst i)

def queueReceive (s : RxState) : RxState × List RxEvent :=
  let (m, q) := receive s.xQueueCan
  ({ s with xQueueCan := q }, m.toList.map .received)

/-- `CAN_Receive_Polling_Task` with its surroundings. -/
def canReceivePollingTask (p : CanRxTaskParam) : Machine RxState RxInput RxEvent where
  step s i :=
    match i with
    | .arrive inst mb frame => some (frameArrives s inst mb frame)
    | .poll => some (poll p s)
    | .receive => some (queueReceive s)

end CanTsn
