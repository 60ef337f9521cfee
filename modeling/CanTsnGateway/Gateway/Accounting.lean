import CanTsnGateway.Gateway.RunRules
import CanTsnGateway.Model.System

/-!
# Every message is accounted for

Whatever the order of callbacks and gateway rounds, and whatever the gate and the driver
say (`system_accounting`):

    rxCount = queueFullErrors + queued + dequeued                         (modulo 2^32)
    dequeued = ignored + in closed containers + pending + carried
    closed containers = containersSent + ethTxErrors + ethBufferErrors    (modulo 2^32)
-/

namespace CanTsn

open BoundedQueue Packer StepMachine

/-! ## The counters of a round -/

/-- What has become of the closed containers. -/
def CanStatistics.offered (st : CanStatistics) : UInt32 :=
  st.containersSent + st.ethTxErrors + st.ethBufferErrors

/-- A round counts each container it closes, once; the receive counters are not its. -/
structure RoundCounts (s s' : GwState) (es : List GwEvent) : Prop where
  offered : s'.canStats.offered = s.canStats.offered + (closings es).length.toUInt32
  rxCount : s'.canStats.rxCount = s.canStats.rxCount
  queueFullErrors : s'.canStats.queueFullErrors = s.canStats.queueFullErrors

/-- A callback counts its message, and again when the queue refuses it. -/
theorem canStats_countAndSend (canStats : CanStatistics) (q : BoundedQueue FlexcanIpMsgBuff)
    (rxData : FlexcanIpMsgBuff) :
    (countAndSend canStats q rxData).2.1.rxCount = canStats.rxCount + 1 ∧
    (countAndSend canStats q rxData).2.1.queueFullErrors =
      canStats.queueFullErrors + (if (countAndSend canStats q rxData).1 then 0 else 1) ∧
    (countAndSend canStats q rxData).2.1.offered = canStats.offered := by
  unfold countAndSend
  simp only
  split
  · exact ⟨rfl, (UInt32.add_zero _).symm, rfl⟩
  · exact ⟨rfl, rfl, rfl⟩

theorem RoundCounts.of_stats_eq {s s' : GwState} {es : List GwEvent} (h : s'.canStats = s.canStats)
    (hes : closings es = []) : RoundCounts s s' es := by
  refine ⟨?_, by rw [h], by rw [h]⟩
  rw [h, hes]
  exact (UInt32.add_zero _).symm

theorem roundCounts_sendPhase (s : GwState) (i : GwInput) :
    RoundCounts s (sendPhase s i).1 (sendPhase s i).2 := by
  unfold sendPhase
  split
  · unfold sendContainer driverCalls
    cases i.provide with
    | refused code lenByte =>
      refine ⟨?_, rfl, rfl⟩
      show s.canStats.containersSent + s.canStats.ethTxErrors + (s.canStats.ethBufferErrors + 1) =
        s.canStats.containersSent + s.canStats.ethTxErrors + s.canStats.ethBufferErrors + 1
      grind
    | granted bufIdx ethPayload lenByte =>
      cases i.transmitOk with
      | true =>
        refine ⟨?_, rfl, rfl⟩
        show s.canStats.containersSent + 1 + s.canStats.ethTxErrors + s.canStats.ethBufferErrors =
          s.canStats.containersSent + s.canStats.ethTxErrors + s.canStats.ethBufferErrors + 1
        grind
      | false =>
        refine ⟨?_, rfl, rfl⟩
        show s.canStats.containersSent + (s.canStats.ethTxErrors + 1) + s.canStats.ethBufferErrors =
          s.canStats.containersSent + s.canStats.ethTxErrors + s.canStats.ethBufferErrors + 1
        grind
  · exact .of_stats_eq rfl rfl

theorem canStats_startContainer (s : GwState) (msgTC : UInt8) :
    (startContainer s msgTC).1.canStats = s.canStats := by
  unfold startContainer
  split <;> rfl

theorem canStats_addPdu (s : GwState) (i : GwInput) (r : RoutedPdu) :
    (addPdu s i r).1.canStats = s.canStats := by
  unfold addPdu
  simp only
  split <;> rfl

theorem RoundCounts.of_sendPhase {s s₁ : GwState} {i : GwInput} {es : List GwEvent}
    (h : s₁.canStats = s.canStats) (hes : closings es = []) :
    RoundCounts s (sendPhase s₁ i).1 (es ++ (sendPhase s₁ i).2) := by
  obtain ⟨h1, h2, h3⟩ := roundCounts_sendPhase s₁ i
  refine ⟨?_, by rw [h2, h], by rw [h3, h]⟩
  rw [h1, h, closings_append, hes, List.nil_append]

theorem roundCounts_step {map : List CanIdToPduId} {s s' : GwState} {i : GwInput} {es : List GwEvent}
    (hs : ethPduSendTas map s i = some (s', es)) : RoundCounts s s' es := by
  have hrecv := closings_receiveEvents s i
  rcases ethPduSendTas_cases hs with ⟨-, rfl, rfl⟩ | ⟨m, -, -, rfl, rfl⟩ |
    ⟨m, r, s₂, s₃, -, -, rfl, rfl, rfl, rfl⟩
  · exact .of_sendPhase rfl hrecv
  · exact .of_stats_eq rfl (by rw [closings_append, hrecv]; rfl)
  · refine .of_sendPhase (by rw [canStats_addPdu, canStats_startContainer]) ?_
    have hstart := closings_of_quiet (isSend_of_local
      (isLocal_startContainer { s with hasOverflowPdu := false } r.msgTC))
    have hadd := fun x => closings_of_quiet (isSend_of_local (isLocal_addPdu x i r))
    rw [closings_append, closings_append, hrecv, hstart, hadd]
    rfl

/-! ## Runs of the system -/

/-- The equations, with the packer behind the gateway's state. -/
structure Accounts (map : List CanIdToPduId) (s : SysState) (tr : List GwEvent) : Prop where
  history : ∃ p, History map tr s.gw p
  rx : s.gw.canStats.rxCount = s.gw.canStats.queueFullErrors + s.xQueueCan.items.length.toUInt32 +
    (received tr).length.toUInt32
  dequeued : (received tr).length = (ignored tr).length + ((received tr).filterMap (route map)).length
  offered : (closings tr).length.toUInt32 = s.gw.canStats.offered

theorem toUInt32_add (a b : Nat) : (a + b).toUInt32 = a.toUInt32 + b.toUInt32 := UInt32.ofNat_add a b

theorem accounts_rxComplete {map : List CanIdToPduId} {s : SysState} {tr : List GwEvent}
    (h : Accounts map s tr) (rxData : FlexcanIpMsgBuff) : Accounts map (rxComplete s rxData) tr := by
  obtain ⟨⟨p, hp⟩, hrx, hdeq, hoff⟩ := h
  have hsim : ∀ st, History map tr { s.gw with canStats := st } p := fun _ =>
    ⟨⟨hp.sim.carry, hp.sim.carried, hp.sim.pending, hp.sim.len, hp.sim.count, hp.sim.tc, hp.sim.bytes⟩,
      hp.wf, hp.contents, hp.closed, hp.opened, hp.records⟩
  obtain ⟨hcount, hfull, hoffered⟩ := canStats_countAndSend s.gw.canStats s.xQueueCan rxData
  have hitems := items_countAndSend s.gw.canStats s.xQueueCan rxData
  refine ⟨⟨p, hsim _⟩, ?_, hdeq, hoff.trans hoffered.symm⟩
  show (countAndSend s.gw.canStats s.xQueueCan rxData).2.1.rxCount =
    (countAndSend s.gw.canStats s.xQueueCan rxData).2.1.queueFullErrors +
      (countAndSend s.gw.canStats s.xQueueCan rxData).2.2.items.length.toUInt32 + _
  rw [hcount, hfull, hitems, List.length_append, toUInt32_add, hrx]
  cases (countAndSend s.gw.canStats s.xQueueCan rxData).1 with
  | true =>
    show _ + 1 = _ + 0 + (_ + 1) + _
    grind
  | false =>
    show _ + 1 = _ + 1 + (_ + 0) + _
    grind

theorem accounts_round {map : List CanIdToPduId} {s s' : SysState} {tr es : List GwEvent} {i : GwInput}
    (h : Accounts map s tr) (hs : (system map).step s (.round i) = some (s', es)) :
    Accounts map s' (tr ++ es) := by
  obtain ⟨⟨p, hp⟩, hrx, hdeq, hoff⟩ := h
  obtain ⟨⟨g, es'⟩, hs', heq⟩ := Option.map_eq_some_iff.1 hs
  obtain ⟨rfl, rfl⟩ := Prod.mk.inj heq
  obtain ⟨hcounts, hrx', hfull'⟩ := roundCounts_step hs'
  obtain ⟨hrecv, hround⟩ := received_round hp hs'
  have hqueue : s.xQueueCan.items = received es' ++ (gatewayReceive s).2.items := by
    rw [hrecv]
    unfold gatewayReceive
    cases s.gw.hasOverflowPdu with
    | true => rfl
    | false => exact items_receive s.xQueueCan
  refine ⟨⟨_, history_step hp hs'⟩, ?_, ?_, ?_⟩
  · show g.canStats.rxCount = g.canStats.queueFullErrors + (gatewayReceive s).2.items.length.toUInt32 + _
    rw [hrx', hfull', hrx, hqueue, received_append, List.length_append, List.length_append, toUInt32_add,
      toUInt32_add]
    grind
  · show (received (tr ++ es')).length = (ignored (tr ++ es')).length +
      ((received (tr ++ es')).filterMap (route map)).length
    rw [received_append, ignored_append, List.filterMap_append, List.length_append, List.length_append,
      List.length_append, hdeq, hround]
    omega
  · show _ = g.canStats.offered
    rw [hcounts, ← hoff, closings_append, List.length_append, toUInt32_add]

theorem accounts_run {map : List CanIdToPduId} {u : UninitLocals} {capacity : Nat} {is : List SysInput}
    {s : SysState} {tr : List GwEvent}
    (hrun : (system map).run (SysState.start u capacity) is = some (s, tr)) : Accounts map s tr := by
  refine (system map).run_invariant_always (Accounts map) ?_
    ⟨⟨empty, history_start map u⟩, rfl, rfl, rfl⟩ hrun
  intro s tr i s₁ es h hs
  cases i with
  | rxComplete rxData =>
    obtain ⟨rfl, rfl⟩ := Prod.mk.inj (Option.some.inj hs)
    rw [List.append_nil]
    exact accounts_rxComplete h rxData
  | round i => exact accounts_round h hs

/-- **Accounting.**  In every state of every run of the system, counters, queue and
containers agree. -/
theorem system_accounting (map : List CanIdToPduId) (u : UninitLocals) (capacity : Nat)
    (is : List SysInput) (s : SysState) (tr : List GwEvent)
    (hrun : (system map).run (SysState.start u capacity) is = some (s, tr)) :
    s.gw.canStats.rxCount = s.gw.canStats.queueFullErrors + s.xQueueCan.items.length.toUInt32 +
      (received tr).length.toUInt32 ∧
    (received tr).length = (ignored tr).length + (closedRecords tr).flatten.length +
      (if s.gw.containerPending then (openRecords tr).length else 0) +
      (if s.gw.hasOverflowPdu then 1 else 0) ∧
    (closings tr).length.toUInt32 = s.gw.canStats.containersSent + s.gw.canStats.ethTxErrors +
      s.gw.canStats.ethBufferErrors := by
  obtain ⟨⟨p, hp⟩, hrx, hdeq, hoff⟩ := accounts_run hrun
  refine ⟨hrx, ?_, hoff⟩
  have hcarry : p.carry.toList.length = if s.gw.hasOverflowPdu then 1 else 0 := by
    rw [← hp.sim.carry_isSome]
    cases p.carry <;> rfl
  have hpending : p.pending.length = if s.gw.containerPending then p.pending.length else 0 := by
    rw [hp.sim.pending]
    cases p.pending <;> rfl
  rw [hdeq, ← hp.contents, contents, List.length_append, List.length_append, hcarry, hp.records, hp.opened,
    ← hpending]
  omega

/-- 26 callbacks, the first without a route and the last one on a full queue; a round that
ignores, one with the gate open, and 23 behind the gate: the last one overflows. -/
def overflowInputs : List SysInput :=
  .rxComplete (.blank 9 0) :: List.replicate 25 (.rxComplete (.blank 1 64)) ++
    List.replicate 2 (.round (.granting none true 0)) ++ List.replicate 23 (.round (.granting none false 0))

theorem system_accounting_overflow :
    ∃ s tr, (system canPduMap).run (SysState.start .zero 25) overflowInputs = some (s, tr) ∧
      s.gw.canStats.rxCount = s.gw.canStats.queueFullErrors + s.xQueueCan.items.length.toUInt32 +
        (received tr).length.toUInt32 ∧
      (received tr).length = (ignored tr).length + (closedRecords tr).flatten.length +
        (if s.gw.containerPending then (openRecords tr).length else 0) +
        (if s.gw.hasOverflowPdu then 1 else 0) ∧
      (closings tr).length.toUInt32 = s.gw.canStats.containersSent + s.gw.canStats.ethTxErrors +
        s.gw.canStats.ethBufferErrors := by
  have hsome : ((system canPduMap).run (SysState.start .zero 25) overflowInputs).isSome := by decide +kernel
  obtain ⟨⟨s, tr⟩, hrun⟩ := Option.isSome_iff_exists.1 hsome
  exact ⟨s, tr, hrun, system_accounting canPduMap .zero 25 overflowInputs s tr hrun⟩

example : ((system canPduMap).run (SysState.start .zero 25) overflowInputs).map (fun r =>
    (r.1.gw.canStats, (closings r.2).length, r.1.gw.hasOverflowPdu)) = some (⟨26, 1, 0, 0, 2⟩, 2, true) := by
  decide +kernel

end CanTsn
