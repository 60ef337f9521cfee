import CanTsnGateway.Model.FlexCanNode

/-!
# The send tasks

`CAN_SendTask_Generic` sends a counter, each task from a message buffer of its own.  A step
of a task is one call of the driver; the controllers, the other tasks and the receive side
take steps in between.
-/

namespace CanTsn

open StepMachine

/-- `CanTxTaskParam_t` without the times -/
structure CanTxTaskParam where
  mbIdx : UInt8
  canId : UInt32
deriving DecidableEq

/-- `t1`, …, `t4` of `start_CAN` -/
def txTasks : List CanTxTaskParam := [⟨4, 1⟩, ⟨5, 2⟩, ⟨6, 3⟩, ⟨7, 4⟩]

/-- The call that a task makes next. -/
inductive SendCall where
  | mainFunctionWrite
  | getTransferStatus
  | send
deriving DecidableEq

structure CanSendTask where
  counter : UInt32
  next : SendCall

/-- `FLEXCAN_INST` -/
def flexcanInst : UInt8 := 0

/-- `data` when it is sent. -/
def counterData (counter : UInt32) : List UInt8 :=
  [(counter &&& 0xFF).toUInt8, ((counter >>> 8) &&& 0xFF).toUInt8, ((counter >>> 16) &&& 0xFF).toUInt8,
    ((counter >>> 24) &&& 0xFF).toUInt8] ++ List.replicate 60 0

structure SendState where
  node : CanNode
  tasks : Nat → CanSendTask
  txCount : UInt32
  txErrCount : UInt32

def SendState.start (p : CanRxTaskParam) (handlerData : FlexcanIpMsgBuff) (capacity : Nat) (ram : UInt8 → ByteMemory.Memory) :
    SendState :=
  ⟨.start p handlerData capacity ram, fun _ => ⟨0, .mainFunctionWrite⟩, 0, 0⟩

def SendState.setTask (s : SendState) (k : Nat) (task : CanSendTask) : SendState :=
  { s with tasks := fun j => if j = k then task else s.tasks j }

/-- `CAN_SendTask_Generic` from one call of the driver to the next -/
def canSendTaskGeneric (t : UInt8 → FlexcanType) (p : CanTxTaskParam) (s : SendState) (k : Nat) :
    Option (SendState × List CanEvent) :=
  let task := s.tasks k
  match task.next with
  | .mainFunctionWrite =>
    let (node, es) := s.node.flexcanIpMainFunctionWrite t flexcanInst p.mbIdx
    some ({ s with node := node }.setTask k { task with next := .getTransferStatus }, es)
  | .getTransferStatus =>
    let st := s.node.flexcanIpGetTransferStatus flexcanInst p.mbIdx
    some (s.setTask k { task with next := if st = .busy then .mainFunctionWrite else .send }, [])
  | .send =>
    let counter := task.counter + 1
    let data := some (counterData counter)
    (s.node.flexcanIpSend t flexcanInst p.mbIdx txInfo p.canId data).map fun (st, node) =>
      let s := { s with node := node }.setTask k ⟨counter, .mainFunctionWrite⟩
      (if st ≠ .success then { s with txErrCount := s.txErrCount + 1 } else { s with txCount := s.txCount + 1 },
        [.send flexcanInst p.mbIdx txInfo p.canId data st])

inductive SendInput where
  /-- A step of the node that no send task takes. -/
  | node (i : CanInput)
  | task (k : Nat)

def canSendTasks (t : UInt8 → FlexcanType) (p : CanRxTaskParam) (params : List CanTxTaskParam) :
    Machine SendState SendInput CanEvent where
  step s i :=
    match i with
    | .node i => ((canNode t p).step s.node i).map fun r => ({ s with node := r.1 }, r.2)
    | .task k =>
      match params[k]? with
      | none => some (s, [])
      | some param => canSendTaskGeneric t param s k

/-- The node's steps are proper, and only the tasks send. -/
def SendInput.Proper (t : UInt8 → FlexcanType) (p : CanRxTaskParam) (s : SendState) : SendInput → Prop
  | .node (.send _ _ _ _ _) | .node (.mainFunctionWrite _ _) => False
  | .node i => i.Proper t p s.node
  | .task _ => True

end CanTsn
