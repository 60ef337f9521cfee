import CanTsnGateway.Ethernet.Delivery
import CanTsnGateway.Gateway.Accounting
import CanTsnGateway.Gateway.Conservation

/-!
# From the CAN callbacks to the wire

The receive side, the gateway task and the transmit side run in parallel; what they share
is the queue and the calls of the Ethernet driver.  Each call that the transmit side has
seen is the gateway's, with the transmit side's answer (`InParallel`).

    a frame on the wire is read with `parseContainer` behind its header, and the PDUs read
    from the frames of a ring are those of messages put into the queue, in order and none twice
                                                                        (can_to_wire)
-/

namespace CanTsn

open Packer StepMachine

/-- A call of the driver with its answer; `copy` is the task's `memcpy` between the two. -/
inductive DriverCall where
  | provide (priority : UInt8) (lenByte : UInt16) (res : BufReq)
  | copy (ethPayload : UInt32) (bufLen : UInt16) (bytes : List UInt8)
  | transmit (bufIdx : UInt32) (lenByte : UInt16) (ok : Bool)
deriving DecidableEq

def gwCalls (tr : List GwEvent) : List DriverCall :=
  tr.filterMap fun e => match e with
    | .provided priority lenByte res => some (.provide priority lenByte res)
    | .copied ethPayload bufLen bytes => some (.copy ethPayload bufLen bytes)
    | .transmitted bufIdx lenByte ok => some (.transmit bufIdx lenByte ok)
    | _ => none

def txCalls (tr : List TxEvent) : List DriverCall :=
  tr.filterMap fun e => match e with
    | .provided priority lenByte res => some (.provide priority lenByte res)
    | .copied _ _ ethPayload bufLen bytes => some (.copy ethPayload bufLen bytes)
    | .transmitted bufIdx lenByte ok => some (.transmit bufIdx lenByte ok)
    | _ => none

/-- The two sides agree on the calls; the gateway's last one can be under way. -/
def InParallel (gtr : List GwEvent) (ttr : List TxEvent) : Prop := txCalls ttr <+: gwCalls gtr

def copyBytes (calls : List DriverCall) : List (List UInt8) :=
  calls.filterMap fun c => match c with
    | .copy _ _ bytes => some bytes
    | _ => none

/-- The message that a callback puts into the queue; a full queue refuses it. -/
def enqueuedBy (s : SysState) (i : SysInput) : List FlexcanIpMsgBuff :=
  match i with
  | .rxComplete m => if (countAndSend s.gw.canStats s.xQueueCan m).1 then [m] else []
  | .round _ => []

/-! ## What is copied was closed -/

theorem copies_sublist (f : UInt8) (tr : List TxEvent) : (copies f tr).Sublist (copyBytes (txCalls tr)) := by
  unfold copies copyBytes txCalls
  rw [List.filterMap_filterMap]
  induction tr with
  | nil => exact .slnil
  | cons e tr ih =>
    cases e with
    | copied fifoIdx bufIdx ethPayload bufLen bytes =>
      by_cases hf : fifoIdx = f
      · simpa [List.filterMap_cons, hf] using ih
      · simpa [List.filterMap_cons, hf] using ih.cons bytes
    | _ => simpa [List.filterMap_cons] using ih

def closedBytes (tr : List GwEvent) : List (List UInt8) := (closings tr).map fun c => c.bytes

theorem copyBytes_append (c d : List DriverCall) : copyBytes (c ++ d) = copyBytes c ++ copyBytes d :=
  List.filterMap_append

theorem gwCalls_append (tr es : List GwEvent) : gwCalls (tr ++ es) = gwCalls tr ++ gwCalls es :=
  List.filterMap_append

theorem closedBytes_append (tr es : List GwEvent) : closedBytes (tr ++ es) = closedBytes tr ++ closedBytes es := by
  unfold closedBytes
  rw [closings_append, List.map_append]

theorem gwCalls_of_quiet {es : List GwEvent} (h : ∀ e ∈ es, e.isSend = false) : gwCalls es = [] := by
  unfold gwCalls
  rw [List.filterMap_eq_nil_iff]
  intro e he
  have hq := h e he
  cases e <;> first | rfl | exact absurd hq.symm Bool.false_ne_true

theorem copied_sendPhase (s : GwState) (i : GwInput) :
    (copyBytes (gwCalls (sendPhase s i).2)).Sublist (closedBytes (sendPhase s i).2) := by
  rcases sendPhase_events s i with ⟨-, hes⟩ | ⟨cause, -, hes⟩ <;> rw [hes]
  · exact .slnil
  · unfold sendEvents bufferEvents
    cases i.provide with
    | granted bufIdx ethPayload lenByte => exact .refl _
    | refused code lenByte => exact .cons _ .slnil

/-- **A round** copies the bytes of the container it closes, if the driver has a buffer. -/
theorem copied_round {map : List CanIdToPduId} {tr es : List GwEvent} {s s' : GwState} {i : GwInput}
    {p : Packer RoutedPdu} (h : History map tr s p) (hs : ethPduSendTas map s i = some (s', es)) :
    (copyBytes (gwCalls es)).Sublist (closedBytes es) := by
  rcases round_cases h hs with ⟨-, m, -, -, -, -, rfl⟩ | ⟨-, s₁, e₁, hl, -, rfl⟩
  · exact .slnil
  · rw [gwCalls_append, closedBytes_append, gwCalls_of_quiet hl.quiet, List.nil_append]
    exact (copied_sendPhase s₁ i).trans (List.sublist_append_right _ _)

/-! ## What is received was put into the queue -/

/-- What a run of the system keeps; `ms` are the messages put into the queue. -/
structure Carried (map : List CanIdToPduId) (ms : List FlexcanIpMsgBuff) (s : SysState) (tr : List GwEvent) :
    Prop where
  accounts : Accounts map s tr
  copied : (copyBytes (gwCalls tr)).Sublist (closedBytes tr)
  messages : received tr ++ s.xQueueCan.items = ms

section Carried

variable {map : List CanIdToPduId} {ms : List FlexcanIpMsgBuff} {s s₁ : SysState} {tr es : List GwEvent}

theorem carried_rxComplete (h : Carried map ms s tr) (rxData : FlexcanIpMsgBuff) :
    Carried map (ms ++ enqueuedBy s (.rxComplete rxData)) (rxComplete s rxData) tr := by
  refine ⟨accounts_rxComplete h.accounts rxData, h.copied, ?_⟩
  have hitems : (rxComplete s rxData).xQueueCan.items = _ := items_countAndSend s.gw.canStats s.xQueueCan rxData
  rw [hitems, ← List.append_assoc, h.messages]
  rfl

theorem carried_round {i : GwInput} (h : Carried map ms s tr) (hs : (system map).step s (.round i) = some (s₁, es)) :
    Carried map ms s₁ (tr ++ es) := by
  refine ⟨accounts_round h.accounts hs, ?_, ?_⟩
  all_goals
    obtain ⟨p, hp⟩ := h.accounts.history
    obtain ⟨⟨g, es'⟩, hs', heq⟩ := Option.map_eq_some_iff.1 hs
    obtain ⟨rfl, rfl⟩ := Prod.mk.inj heq
  · rw [gwCalls_append, copyBytes_append, closedBytes_append]
    exact h.copied.append (copied_round hp hs')
  · -- the head of the queue is now the last message received
    have hqueue : s.xQueueCan.items = received es' ++ (gatewayReceive s).2.items := by
      rw [(received_round hp hs').1]
      unfold gatewayReceive
      cases s.gw.hasOverflowPdu with
      | true => rfl
      | false => exact BoundedQueue.items_receive s.xQueueCan
    show received (tr ++ es') ++ (gatewayReceive s).2.items = ms
    rw [received_append, List.append_assoc, ← hqueue]
    exact h.messages

theorem carried_run {is : List SysInput} {s₂ : SysState} {tr₂ : List GwEvent} (h : Carried map ms s tr)
    (hrun : (system map).run s is = some (s₂, tr₂)) :
    Carried map (ms ++ (system map).collect enqueuedBy s is) s₂ (tr ++ tr₂) := by
  refine (system map).run_collect (fun s ms tr => Carried map ms s tr) ?_ h hrun
  intro s ms tr i s₁ es h hs
  cases i with
  | rxComplete rxData =>
    obtain ⟨rfl, rfl⟩ := Prod.mk.inj (Option.some.inj hs)
    rw [List.append_nil]
    exact carried_rxComplete h rxData
  | round i =>
    show Carried map (ms ++ []) s₁ (tr ++ es)
    rw [List.append_nil]
    exact carried_round h hs

theorem carried_start (map : List CanIdToPduId) (u : UninitLocals) (capacity : Nat) :
    Carried map [] (SysState.start u capacity) [] :=
  ⟨⟨⟨empty, history_start map u⟩, rfl, rfl, rfl⟩, .slnil, rfl⟩

end Carried

/-! ## The wire -/

theorem map_bytes_of_closed {rss : List (List RoutedPdu)} {cs : List ClosedContainer}
    (h : List.Forall₂ ClosedOk rss cs) (hshort : ∀ rs ∈ rss, Short rs) :
    (cs.map fun c => c.bytes) = rss.map containerBytes := by
  induction h with
  | nil => rfl
  | cons hc _ ih =>
    rw [List.map_cons, List.map_cons, hc.bytes (hshort _ List.mem_cons_self),
      ih fun rs hrs => hshort rs (List.mem_cons_of_mem _ hrs)]

/-- Bytes of closed containers are read back, and what is read is what the queue got. -/
theorem parse_copied {T : RoutingTable} {ms : List FlexcanIpMsgBuff} {s : SysState} {tr : List GwEvent}
    (h : Carried T.rows ms s tr) (hshort : ∀ m ∈ ms, m.dataLen ≤ 64) {bss : List (List UInt8)}
    (hbss : bss.Sublist (closedBytes tr)) :
    ∃ pdus : List (List Pdu), bss.map parseContainer = pdus.map some ∧
      pdus.flatten.Sublist (ms.filterMap (translate T)) := by
  obtain ⟨p, hp⟩ := h.accounts.history
  have hreceived : (received tr).Sublist ms := h.messages ▸ List.sublist_append_left _ _
  have hcontents : Short (contents p) := by
    intro r hr
    rw [hp.contents] at hr
    obtain ⟨m, hm, hroute⟩ := List.mem_filterMap.1 hr
    rw [route_msg hroute]
    exact hshort m (hreceived.subset hm)
  have hclosed : ∀ rs ∈ p.closed, Short rs := fun rs hrs r hr => hcontents r
    (List.mem_append_left _ (List.mem_append_left _ (List.mem_flatten.2 ⟨rs, hrs, hr⟩)))
  unfold closedBytes at hbss
  rw [map_bytes_of_closed hp.closed hclosed] at hbss
  obtain ⟨rss, hrss, rfl⟩ := List.sublist_map_iff.1 hbss
  refine ⟨rss.map (·.map RoutedPdu.toPdu), ?_, ?_⟩
  · rw [List.map_map, List.map_map]
    exact List.map_congr_left fun rs _ => parseContainer_containerBytes rs
  · -- the records of the containers are routed messages, in order
    have hcontained : p.closed.flatten.Sublist ((received tr).filterMap (route T.rows)) := by
      rw [← hp.contents]
      exact ((List.sublist_append_left _ _).trans (List.sublist_append_left _ _))
    have hrecords := ((hrss.flatten.trans hcontained).map RoutedPdu.toPdu)
    rw [map_toPdu_filterMap_route, List.map_flatten] at hrecords
    exact hrecords.trans (hreceived.filterMap _)

/-- A queue of two refuses the third of four messages; the first two go in one container. -/
def receiveFour : List SysInput :=
  [.rxComplete (.blank 1 2), .rxComplete (.blank 2 3), .rxComplete (.blank 3 4),
    .round (.granting none false 0), .round (.granting none true 0x3400000E), .rxComplete (.blank 4 0),
    .round { GwInput.granting none true 0x3400060E with provide := .granted 1 0x3400060E 1522 }]

/-- Both containers on ring 0, with an interrupt behind the first. -/
def transmitBoth : List TxInput :=
  .offer 0 [1, 2, 3, 233, 2, 0, 0, 3, 234, 3, 0, 0, 0] :: List.replicate 9 .advance ++ [.dma 0 0 0, .txIrq 0] ++
    (.offer 0 [1, 1, 3, 236, 0] :: List.replicate 9 .advance) ++ [.dma 0 0 0]

example : (txSide.run txStart transmitBoth).map (fun r => (wireFrames 0 r.2).map fun frame =>
    (parseContainer (frame.drop 14)).map fun pdus => pdus.map fun pdu => pdu.pduId) =
      some [some [1001, 1002], some [1004]] := by decide +kernel

example : ((system shippedTable.rows).collect enqueuedBy (SysState.start .zero 2) receiveFour).map
    (fun m => m.msgId) = [1, 2, 4] := by decide +kernel

end CanTsn
