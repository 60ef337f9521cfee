import CanTsnGateway.Lib.ByteMemory
import CanTsnGateway.Lib.StepMachine

/-!
# The FreeRTOS queue

`Queue_t` with its storage area in memory, and the calls that never wait: the ones for
interrupts, and `xQueueReceive` and `xQueuePeek` with no ticks to wait.  A failed
`configASSERT` disables the interrupts and never comes back (`none`).

No task waits on a queue, so the lists of waiting tasks are empty and are left out.
-/

namespace CanTsn

open ByteMemory StepMachine

/-- `Queue_t` -/
structure QueueDefinition where
  pcHead : UInt32
  pcWriteTo : UInt32
  pcTail : UInt32
  pcReadFrom : UInt32
  uxMessagesWaiting : UInt32
  uxLength : UInt32
  uxItemSize : UInt32
  cRxLock : Int8
  cTxLock : Int8

def queueUnlocked : Int8 := -1
def queueInt8Max : Int8 := 127

def sizeMax : UInt32 := 0xFFFFFFFF

/-- `sizeof( Queue_t )`: four pointers, two lists, three counts, two locks and their padding. -/
def sizeofQueueT : UInt32 := 72

/-! ## Creation -/

/-- `xQueueGenericReset` -/
def xQueueGenericReset (q : QueueDefinition) : Option QueueDefinition :=
  if q.uxLength ≥ 1 ∧ sizeMax / q.uxLength ≥ q.uxItemSize then
    some { q with
      pcTail := q.pcHead + q.uxLength * q.uxItemSize
      uxMessagesWaiting := 0
      pcWriteTo := q.pcHead
      pcReadFrom := q.pcHead + (q.uxLength - 1) * q.uxItemSize
      cRxLock := queueUnlocked
      cTxLock := queueUnlocked }
  else none

/-- `prvInitialiseNewQueue`; `pxNewQueue` is the address of the structure and `q` what its
fields hold. -/
def prvInitialiseNewQueue (uxQueueLength uxItemSize pucQueueStorage pxNewQueue : UInt32) (q : QueueDefinition) :
    Option QueueDefinition :=
  let q := { q with pcHead := if uxItemSize = 0 then pxNewQueue else pucQueueStorage }
  xQueueGenericReset { q with uxLength := uxQueueLength, uxItemSize := uxItemSize }

/-- `xQueueGenericCreate`; the inner `none` is the handle `NULL`.  `pvPortMalloc` returns 0
when it has no block, and `garbage` is what a new block holds. -/
def xQueueGenericCreate (pvPortMalloc : UInt32 → UInt32) (garbage : QueueDefinition)
    (uxQueueLength uxItemSize : UInt32) : Option (Option QueueDefinition) :=
  if uxQueueLength > 0 ∧ sizeMax / uxQueueLength ≥ uxItemSize ∧
      sizeMax - sizeofQueueT ≥ uxQueueLength * uxItemSize then
    let pxNewQueue := pvPortMalloc (sizeofQueueT + uxQueueLength * uxItemSize)
    if pxNewQueue = 0 then some none
    else
      (prvInitialiseNewQueue uxQueueLength uxItemSize (pxNewQueue + sizeofQueueT) pxNewQueue garbage).map some
  else none

/-! ## Copies -/

/-- `queueSEND_TO_BACK`, `queueSEND_TO_FRONT`, `queueOVERWRITE` -/
inductive CopyPosition where
  | sendToBack
  | sendToFront
  | overwrite
deriving DecidableEq

/-- A queue and the memory. -/
structure QueueState where
  queue : QueueDefinition
  memory : Memory

/-- `prvCopyDataToQueue`; `pvItemToQueue` is what is found from that address on. -/
def prvCopyDataToQueue (s : QueueState) (pvItemToQueue : List UInt8) (xPosition : CopyPosition) : QueueState :=
  let q := s.queue
  let item := pvItemToQueue.take q.uxItemSize.toNat
  if q.uxItemSize = 0 then
    { s with queue := { q with uxMessagesWaiting := q.uxMessagesWaiting + 1 } }
  else if xPosition = .sendToBack then
    let pcWriteTo := q.pcWriteTo + q.uxItemSize
    { queue := { q with
        pcWriteTo := if pcWriteTo ≥ q.pcTail then q.pcHead else pcWriteTo
        uxMessagesWaiting := q.uxMessagesWaiting + 1 }
      memory := write s.memory q.pcWriteTo item }
  else
    let pcReadFrom := q.pcReadFrom - q.uxItemSize
    let uxMessagesWaiting :=
      if xPosition = .overwrite ∧ q.uxMessagesWaiting > 0 then q.uxMessagesWaiting - 1 else q.uxMessagesWaiting
    { queue := { q with
        pcReadFrom := if pcReadFrom < q.pcHead then q.pcTail - q.uxItemSize else pcReadFrom
        uxMessagesWaiting := uxMessagesWaiting + 1 }
      memory := write s.memory q.pcReadFrom item }

/-- `prvCopyDataFromQueue`; the bytes that it copies to `pvBuffer`. -/
def prvCopyDataFromQueue (s : QueueState) : List UInt8 × QueueState :=
  let q := s.queue
  if q.uxItemSize ≠ 0 then
    let pcReadFrom := q.pcReadFrom + q.uxItemSize
    let pcReadFrom := if pcReadFrom ≥ q.pcTail then q.pcHead else pcReadFrom
    (read s.memory pcReadFrom q.uxItemSize.toNat, { s with queue := { q with pcReadFrom := pcReadFrom } })
  else ([], s)

/-! ## Calls -/

/-- `xQueueGenericSendFromISR` -/
def xQueueGenericSendFromISR (s : QueueState) (pvItemToQueue : List UInt8) (xCopyPosition : CopyPosition) :
    Option (Bool × QueueState) :=
  if xCopyPosition = .overwrite ∧ s.queue.uxLength ≠ 1 then none
  else if s.queue.uxMessagesWaiting < s.queue.uxLength ∨ xCopyPosition = .overwrite then
    let cTxLock := s.queue.cTxLock
    let s := prvCopyDataToQueue s pvItemToQueue xCopyPosition
    if cTxLock = queueUnlocked then some (true, s)
    else if cTxLock = queueInt8Max then none
    else some (true, { s with queue := { s.queue with cTxLock := cTxLock + 1 } })
  else some (false, s)

/-- `xQueueReceive` with `xTicksToWait` 0; `none` is `errQUEUE_EMPTY`. -/
def xQueueReceive (s : QueueState) : Option (List UInt8) × QueueState :=
  let uxMessagesWaiting := s.queue.uxMessagesWaiting
  if uxMessagesWaiting > 0 then
    let (item, s) := prvCopyDataFromQueue s
    (some item, { s with queue := { s.queue with uxMessagesWaiting := uxMessagesWaiting - 1 } })
  else (none, s)

/-- `xQueueReceiveFromISR` -/
def xQueueReceiveFromISR (s : QueueState) : Option (Option (List UInt8) × QueueState) :=
  let uxMessagesWaiting := s.queue.uxMessagesWaiting
  if uxMessagesWaiting > 0 then
    let cRxLock := s.queue.cRxLock
    let (item, s) := prvCopyDataFromQueue s
    let s := { s with queue := { s.queue with uxMessagesWaiting := uxMessagesWaiting - 1 } }
    if cRxLock = queueUnlocked then some (some item, s)
    else if cRxLock = queueInt8Max then none
    else some (some item, { s with queue := { s.queue with cRxLock := cRxLock + 1 } })
  else some (none, s)

/-- `xQueuePeek` with `xTicksToWait` 0 -/
def xQueuePeek (s : QueueState) : Option (List UInt8) × QueueState :=
  if s.queue.uxMessagesWaiting > 0 then
    let pcOriginalReadPosition := s.queue.pcReadFrom
    let (item, s) := prvCopyDataFromQueue s
    (some item, { s with queue := { s.queue with pcReadFrom := pcOriginalReadPosition } })
  else (none, s)

/-- `xQueuePeekFromISR`, which refuses semaphores -/
def xQueuePeekFromISR (s : QueueState) : Option (Option (List UInt8) × QueueState) :=
  if s.queue.uxItemSize = 0 then none
  else if s.queue.uxMessagesWaiting > 0 then
    let pcOriginalReadPosition := s.queue.pcReadFrom
    let (item, s) := prvCopyDataFromQueue s
    some (some item, { s with queue := { s.queue with pcReadFrom := pcOriginalReadPosition } })
  else some (none, s)

/-! ## Runs -/

inductive QueueCall where
  | sendFromISR (pvItemToQueue : List UInt8) (xCopyPosition : CopyPosition)
  | receive
  | receiveFromISR
  | peek
  | peekFromISR
  | reset

/-- What a call returns. -/
inductive QueueResult where
  | sent (ok : Bool)
  | received (item : Option (List UInt8))
  | peeked (item : Option (List UInt8))
  | wasReset
deriving DecidableEq

/-- Calls on one queue; each has its critical section. -/
def freeRtosQueue : Machine QueueState QueueCall QueueResult where
  step s call :=
    match call with
    | .sendFromISR item pos => (xQueueGenericSendFromISR s item pos).map fun r => (r.2, [.sent r.1])
    | .receive =>
      let (item, s) := xQueueReceive s
      some (s, [.received item])
    | .receiveFromISR => (xQueueReceiveFromISR s).map fun r => (r.2, [.received r.1])
    | .peek =>
      let (item, s) := xQueuePeek s
      some (s, [.peeked item])
    | .peekFromISR => (xQueuePeekFromISR s).map fun r => (r.2, [.peeked r.1])
    | .reset => (xQueueGenericReset s.queue).map fun q => ({ s with queue := q }, [.wasReset])

end CanTsn
