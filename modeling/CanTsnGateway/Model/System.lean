import CanTsnGateway.Model.Gateway

/-!
# The receive callback and the gateway task on one queue

The receive side calls `CAN0_Callback_SKKU` for a received message, the gateway task runs
its rounds; both work on `xQueue_CAN` and on `canStats`.  A run of `system` is any order
of callbacks and rounds.
-/

namespace CanTsn

open BoundedQueue StepMachine

structure SysState where
  gw : GwState
  xQueueCan : BoundedQueue FlexcanIpMsgBuff

def SysState.start (u : UninitLocals) (capacity : Nat) : SysState :=
  ⟨GwState.start u, BoundedQueue.empty capacity⟩

inductive SysInput where
  /-- An RX_COMPLETE callback that puts `rxData` into the queue. -/
  | rxComplete (rxData : FlexcanIpMsgBuff)
  /-- A round of the gateway task; what it receives is up to the queue. -/
  | round (i : GwInput)

/-- A callback's counting and sending. -/
def rxComplete (s : SysState) (rxData : FlexcanIpMsgBuff) : SysState :=
  let (_, canStats, q) := countAndSend s.gw.canStats s.xQueueCan rxData
  ⟨{ s.gw with canStats := canStats }, q⟩

/-- `xQueueReceive`, which a round with an overflow PDU does not call. -/
def gatewayReceive (s : SysState) : Option FlexcanIpMsgBuff × BoundedQueue FlexcanIpMsgBuff :=
  if s.gw.hasOverflowPdu then (none, s.xQueueCan) else receive s.xQueueCan

def system (map : List CanIdToPduId) : Machine SysState SysInput GwEvent where
  step s i :=
    match i with
    | .rxComplete m => some (rxComplete s m, [])
    | .round i =>
      let (m, q) := gatewayReceive s
      (ethPduSendTas map s.gw { i with queue := m }).map fun r => (⟨r.1, q⟩, r.2)

end CanTsn
