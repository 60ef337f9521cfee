import CanTsnGateway.Lib.WordBytes
import CanTsnGateway.Model.System
import CanTsnGateway.Queue.Refinement

/-!
# The gateway on the FreeRTOS queue

`system` runs the callbacks and the gateway task on a bounded queue of message buffers.
Here they run on the kernel's queue, which holds the bytes of the buffers in a storage area
of the heap.  The gateway cannot tell them apart.

    any order of callbacks and rounds: the same driver calls, the same statistics
                                                                       (system_on_kernel_queue)
-/

namespace CanTsn

open BoundedQueue ByteMemory StepMachine

/-- The bytes of a C object. -/
structure ItemLayout (α : Type) where
  size : UInt32
  bytes : α → List UInt8
  ofBytes : List UInt8 → α
  length_bytes : ∀ a, (bytes a).length = size.toNat
  ofBytes_bytes : ∀ a, ofBytes (bytes a) = a

structure KernelSysState where
  gw : GwState
  xQueueCan : QueueState

/-- `CAN0_Callback_SKKU` for an RX_COMPLETE event, behind `FlexCAN_Ip_Receive` -/
def kernelRxComplete (L : ItemLayout FlexcanIpMsgBuff) (s : KernelSysState) (rxData : FlexcanIpMsgBuff) :
    Option KernelSysState :=
  let canStats := { s.gw.canStats with rxCount := s.gw.canStats.rxCount + 1 }
  match xQueueGenericSendFromISR s.xQueueCan (L.bytes rxData) .sendToBack with
  | none => none
  | some (true, q) => some ⟨{ s.gw with canStats := canStats }, q⟩
  | some (false, q) =>
    some ⟨{ s.gw with canStats := { canStats with queueFullErrors := canStats.queueFullErrors + 1 } }, q⟩

/-- `xQueueReceive(xQueue_CAN, &rxData, 0)`, which a round with an overflow PDU does not call. -/
def kernelGatewayReceive (L : ItemLayout FlexcanIpMsgBuff) (s : KernelSysState) :
    Option FlexcanIpMsgBuff × QueueState :=
  if s.gw.hasOverflowPdu then (none, s.xQueueCan)
  else
    let (item, q) := xQueueReceive s.xQueueCan
    (item.map L.ofBytes, q)

def kernelSystem (L : ItemLayout FlexcanIpMsgBuff) (map : List CanIdToPduId) :
    Machine KernelSysState SysInput GwEvent where
  step s i :=
    match i with
    | .rxComplete m => (kernelRxComplete L s m).map fun s => (s, [])
    | .round i =>
      let (m, q) := kernelGatewayReceive L s
      (ethPduSendTas map s.gw { i with queue := m }).map fun r => (⟨r.1, q⟩, r.2)

section Simulation

variable {L : ItemLayout FlexcanIpMsgBuff} {q₀ : QueueDefinition} {m₀ : Memory} {s : KernelSysState} {t : SysState}

/-- The kernel's queue holds the bytes of the messages. -/
def OnKernel (L : ItemLayout FlexcanIpMsgBuff) (q₀ : QueueDefinition) (m₀ : Memory) (s : KernelSysState)
    (t : SysState) : Prop := s.gw = t.gw ∧ Tracks q₀ m₀ s.xQueueCan (t.xQueueCan.map L.bytes)

theorem rxComplete_onKernel (h : OnKernel L q₀ m₀ s t) (hsize : q₀.uxItemSize = L.size) (m : FlexcanIpMsgBuff) :
    ∃ s', kernelRxComplete L s m = some s' ∧ OnKernel L q₀ m₀ s' (rxComplete t m) := by
  obtain ⟨hgw, htracks⟩ := h
  have hitem : (L.bytes m).length = q₀.uxItemSize.toNat := by rw [L.length_bytes, hsize]
  obtain ⟨q, hsend, hq⟩ := sendToBack_eq htracks hitem
  rw [send_map] at hsend hq
  unfold kernelRxComplete rxComplete countAndSend
  simp only [hsend]
  generalize hr : send t.xQueueCan m = r at *
  obtain ⟨ok, q'⟩ := r
  cases ok with
  | true => exact ⟨_, rfl, by rw [hgw]; rfl, hq⟩
  | false => exact ⟨_, rfl, by rw [hgw]; rfl, hq⟩

theorem gatewayReceive_onKernel (h : OnKernel L q₀ m₀ s t) :
    (kernelGatewayReceive L s).1 = (gatewayReceive t).1 ∧
      Tracks q₀ m₀ (kernelGatewayReceive L s).2 ((gatewayReceive t).2.map L.bytes) := by
  obtain ⟨hgw, htracks⟩ := h
  obtain ⟨hitem, hq⟩ := receive_tracks htracks
  rw [receive_map] at hitem hq
  unfold kernelGatewayReceive gatewayReceive
  rw [hgw]
  split
  · exact ⟨rfl, htracks⟩
  · refine ⟨?_, hq⟩
    show (xQueueReceive s.xQueueCan).1.map L.ofBytes = (receive t.xQueueCan).1
    rw [hitem, Option.map_map]
    have hid : L.ofBytes ∘ L.bytes = id := funext L.ofBytes_bytes
    rw [hid, Option.map_id]
    rfl

theorem step_onKernel (h : OnKernel L q₀ m₀ s t) (hsize : q₀.uxItemSize = L.size) (map : List CanIdToPduId)
    (i : SysInput) :
    Option.Rel (fun r r' => OnKernel L q₀ m₀ r.1 r'.1 ∧ r.2 = r'.2) ((kernelSystem L map).step s i)
      ((system map).step t i) := by
  cases i with
  | rxComplete m =>
    obtain ⟨s', hs', h'⟩ := rxComplete_onKernel h hsize m
    unfold kernelSystem system
    simp only [hs', Option.map_some]
    exact .some ⟨h', rfl⟩
  | round i =>
    obtain ⟨hm, hq⟩ := gatewayReceive_onKernel h
    unfold kernelSystem system
    simp only [hm, h.1]
    cases ethPduSendTas map t.gw { i with queue := (gatewayReceive t).1 } with
    | none => exact .none
    | some r => exact .some ⟨⟨rfl, hq⟩, rfl⟩

end Simulation

/-- **The gateway on the kernel's queue** makes the same driver calls and counts the same. -/
theorem system_on_kernel_queue (L : ItemLayout FlexcanIpMsgBuff) {ucHeap : Nat} {pvPortMalloc : UInt32 → UInt32}
    {garbage q₀ : QueueDefinition} {uxQueueLength : UInt32} (hheap : InHeap ucHeap pvPortMalloc)
    (hcreate : xQueueGenericCreate pvPortMalloc garbage uxQueueLength L.size = some (some q₀)) (m : Memory)
    (map : List CanIdToPduId) (u : UninitLocals) (sis : List SysInput) :
    ((kernelSystem L map).run ⟨GwState.start u, q₀, m⟩ sis).map (fun r => (r.1.gw, r.2)) =
      ((system map).run (SysState.start u uxQueueLength.toNat) sis).map fun r => (r.1.gw, r.2) := by
  obtain ⟨htracks, hsize⟩ := created_tracks hheap hcreate m
  have hstart : OnKernel L q₀ m ⟨GwState.start u, q₀, m⟩ (SysState.start u uxQueueLength.toNat) := ⟨rfl, htracks⟩
  have hrel := (kernelSystem L map).run_bisim (system map) (OnKernel L q₀ m) (Q := fun _ => True)
    (fun _ _ i h _ => step_onKernel h hsize map i) hstart (fun _ _ => trivial : ∀ i ∈ sis, True)
  generalize (kernelSystem L map).run ⟨GwState.start u, q₀, m⟩ sis = x at *
  generalize (system map).run (SysState.start u uxQueueLength.toNat) sis = y at *
  cases hrel with
  | none => rfl
  | some h => exact congrArg some (Prod.ext h.1.1 h.2)

/-! ## The message buffer's bytes -/

/-- `Flexcan_Ip_MsgBuffType` with its offsets; `cs`, `id_hit`, `time_stamp` and the padding
are 0. -/
def flexcanIpMsgBuffLayout : ItemLayout FlexcanIpMsgBuff where
  size := 80
  bytes m := List.replicate 4 0 ++ (WordBytes.bytes m.msgId ++ (m.data ++ (m.dataLen :: List.replicate 7 0)))
  ofBytes bs := ⟨WordBytes.ofBytes ((bs.drop 4).take 4), (List.range 64).map fun k => bs.getD (8 + k) 0,
    bs.getD 72 0, by simp⟩
  length_bytes m := by simp [m.length_data, WordBytes.length_bytes]
  ofBytes_bytes m := by
    obtain ⟨msgId, data, dataLen, hlen⟩ := m
    have hid : (WordBytes.bytes msgId ++ (data ++ (dataLen :: List.replicate 7 0))).take 4 = WordBytes.bytes msgId :=
      List.take_left' (WordBytes.length_bytes msgId)
    have hdata : ((List.range 64).map fun k => (data ++ (dataLen :: List.replicate 7 0)).getD k 0) = data := by
      apply List.ext_getElem
      · simp [hlen]
      · intro k hk hk'
        simp [List.getElem?_append_left hk', List.getElem?_eq_getElem hk']
    have hdl : (data ++ (dataLen :: List.replicate 7 0)).getD 64 0 = dataLen := by simp [hlen]
    congr 1
    exact (congrArg WordBytes.ofBytes hid).trans (WordBytes.ofBytes_bytes msgId)

/-- The queue that `main` creates. -/
def xQueueCan64 : QueueDefinition :=
  ⟨0x34000048, 0x34000048, 0x34001448, 0x340013F8, 0, 64, 80, queueUnlocked, queueUnlocked⟩

/-- The queue gets full and refuses a message, two rounds make room, and the next two
messages go round its end. -/
def fullAndRound : List SysInput :=
  List.replicate 65 (.rxComplete (.blank 1 2)) ++ List.replicate 2 (.round (.granting none false 0)) ++
    List.replicate 2 (.rxComplete (.blank 2 3)) ++ List.replicate 64 (.round (.granting none true 0x3400000E))

theorem system_on_kernel_queue_one :
    ((kernelSystem flexcanIpMsgBuffLayout shippedTable.rows).run ⟨GwState.start .zero, xQueueCan64, fun _ => 0⟩
      fullAndRound).map (fun r => (r.1.gw, r.2)) =
    ((system shippedTable.rows).run (SysState.start .zero 64) fullAndRound).map fun r => (r.1.gw, r.2) :=
  system_on_kernel_queue flexcanIpMsgBuffLayout oneBlock_inHeap
    (show xQueueGenericCreate oneBlock allZero 64 80 = some (some xQueueCan64) from rfl) _ _ _ _

example : ((system shippedTable.rows).run (SysState.start .zero 64) fullAndRound).map
    (fun r => (r.1.gw.canStats.queueFullErrors, r.1.xQueueCan.items.length)) = some (1, 0) := by decide +kernel

end CanTsn
