import CanTsnGateway.Lib.BoundedQueue
import CanTsnGateway.Model.CanMessage

/-!
# The receive queue and the statistics

`xQueue_CAN` carries message buffers from the receive task to the gateway task; both
tasks count in `canStats`.
-/

namespace CanTsn

open BoundedQueue

/-- The counters of `CANStatistics_t` that the two tasks count with. -/
structure CanStatistics where
  rxCount : UInt32
  queueFullErrors : UInt32
  ethBufferErrors : UInt32
  ethTxErrors : UInt32
  containersSent : UInt32
deriving DecidableEq

def CanStatistics.zero : CanStatistics := ⟨0, 0, 0, 0, 0⟩

/-- `xQueueSendFromISR(xQueue_CAN, &rxData, …)` with the counting around it. -/
def countAndSend (canStats : CanStatistics) (xQueueCan : BoundedQueue FlexcanIpMsgBuff)
    (rxData : FlexcanIpMsgBuff) : Bool × CanStatistics × BoundedQueue FlexcanIpMsgBuff :=
  let canStats := { canStats with rxCount := canStats.rxCount + 1 }
  let (ok, q) := send xQueueCan rxData
  if ok then (true, canStats, q)
  else (false, { canStats with queueFullErrors := canStats.queueFullErrors + 1 }, q)

/-- The queue after the call. -/
theorem items_countAndSend (canStats : CanStatistics) (q : BoundedQueue FlexcanIpMsgBuff)
    (rxData : FlexcanIpMsgBuff) :
    (countAndSend canStats q rxData).2.2.items =
      q.items ++ (if (countAndSend canStats q rxData).1 then [rxData] else []) := by
  have h := items_send q rxData
  unfold countAndSend
  simp only
  split
  · next hok => rw [hok] at h; exact h
  · next hok => rw [if_neg hok] at h; exact h

theorem capacity_countAndSend (canStats : CanStatistics) (q : BoundedQueue FlexcanIpMsgBuff)
    (rxData : FlexcanIpMsgBuff) : (countAndSend canStats q rxData).2.2.capacity = q.capacity := by
  have h := capacity_send q rxData
  unfold countAndSend
  simp only
  split <;> exact h

theorem countAndSend_accepts_iff (canStats : CanStatistics) (q : BoundedQueue FlexcanIpMsgBuff)
    (rxData : FlexcanIpMsgBuff) :
    (countAndSend canStats q rxData).1 = true ↔ q.items.length < q.capacity := by
  rw [← send_accepts_iff q rxData]
  unfold countAndSend
  simp only
  split
  · next hok => simp [hok]
  · next hok => simp [hok]

end CanTsn
