import CanTsnGateway.Gateway.RunRules

/-!
# Nothing is lost, duplicated or reordered before a container closes

What the gateway holds and has closed is read back from bytes with `parseContainer`:

    closed containers ++ pending container ++ overflow PDU
      = the dequeued messages that have a route, translated, in order
                                                          (gateway_conservation)

The dequeued messages are what `xQueueReceive` has handed to the rounds.

and with a table the lookup can walk through every round comes back
(`gateway_run_total`).
-/

namespace CanTsn

open Packer StepMachine

/-- What `xQueueReceive` hands to a round; one with an overflow PDU does not ask. -/
def dequeuedBy (s : GwState) (i : GwInput) : List FlexcanIpMsgBuff :=
  if s.hasOverflowPdu then [] else i.queue.toList

/-- The PDU of a message whose identifier is in the table. -/
def translate (T : RoutingTable) (m : FlexcanIpMsgBuff) : Option Pdu :=
  (routeOf T.rows m.msgId).map fun e => ⟨e.pduId, m.payload, m.length_payload_lt⟩

/-- The records of all closed containers, in closing order. -/
def closedPdus (tr : List GwEvent) : Option (List Pdu) :=
  ((closings tr).mapM fun c => parseContainer c.bytes).map List.flatten

/-- The records of the pending container. -/
def pendingPdus (s : GwState) : Option (List Pdu) :=
  if s.containerPending then parseContainer (s.currentContainer.upto s.containerLen.toNat)
  else some []

/-- The overflow PDU, if one is held. -/
def overflowPdus (T : RoutingTable) (s : GwState) : Option (List Pdu) :=
  if s.hasOverflowPdu then (translate T s.overflowPdu).map fun p => [p] else some []

/-! ## Routing -/

theorem ethPduSendTas_total (T : RoutingTable) (s : GwState) (i : GwInput) :
    ∃ s' es, ethPduSendTas T.rows s i = some (s', es) := by
  refine ethPduSendTas_comes_back fun m _ => ?_
  rw [gwGetPduIdFromCanFd_eq T.rows m.msgId tcBestEffort T.length_le]
  exact Option.some_ne_none _

theorem gateway_run_total (T : RoutingTable) (s : GwState) (is : List GwInput) :
    ∃ s' tr, (gateway T.rows).run s is = some (s', tr) := by
  refine (gateway T.rows).run_total (fun _ => True) (fun s i _ => ?_) trivial is
  obtain ⟨s', es, hs⟩ := ethPduSendTas_total T s i
  exact ⟨s', es, hs, trivial⟩

theorem route_map_toPdu (T : RoutingTable) (m : FlexcanIpMsgBuff) :
    (route T.rows m).map RoutedPdu.toPdu = translate T m := by
  unfold route translate
  cases hr : routeOf T.rows m.msgId with
  | none =>
    rw [T.lookup_none m.msgId tcBestEffort hr]
    rfl
  | some e =>
    obtain ⟨hl, hne⟩ := T.lookup_some m.msgId tcBestEffort e hr
    rw [hl]
    simp only [if_neg hne]
    rfl

theorem map_toPdu_filterMap_route (T : RoutingTable) (ms : List FlexcanIpMsgBuff) :
    (ms.filterMap (route T.rows)).map RoutedPdu.toPdu = ms.filterMap (translate T) := by
  rw [List.map_filterMap]
  congr 1
  funext m
  exact route_map_toPdu T m

/-! ## Reading the bytes back -/

theorem parseContainer_containerBytes (rs : List RoutedPdu) :
    parseContainer (containerBytes rs) = some (rs.map RoutedPdu.toPdu) :=
  parseContainer_encodeAll _ _ _

theorem mapM_parse_closed {rss : List (List RoutedPdu)} {cs : List ClosedContainer}
    (h : List.Forall₂ ClosedOk rss cs) (hshort : ∀ rs ∈ rss, Short rs) :
    (cs.mapM fun c => parseContainer c.bytes) = some (rss.map (·.map RoutedPdu.toPdu)) := by
  induction h with
  | nil => rfl
  | cons hc _ ih =>
    have hbytes := hc.bytes (hshort _ List.mem_cons_self)
    rw [List.mapM_cons, hbytes, parseContainer_containerBytes,
      ih fun rs hrs => hshort rs (List.mem_cons_of_mem _ hrs)]
    rfl

theorem closedPdus_of_history {map : List CanIdToPduId} {tr : List GwEvent} {s : GwState}
    {p : Packer RoutedPdu} (h : History map tr s p) (hshort : Short (contents p)) :
    closedPdus tr = some (p.closed.flatten.map RoutedPdu.toPdu) := by
  have hclosed : ∀ rs ∈ p.closed, Short rs := fun rs hrs r hr => hshort r
    (List.mem_append_left _ (List.mem_append_left _ (List.mem_flatten.2 ⟨rs, hrs, hr⟩)))
  rw [closedPdus, mapM_parse_closed h.closed hclosed, Option.map_some, List.map_flatten]

theorem pendingPdus_of_history {map : List CanIdToPduId} {tr : List GwEvent} {s : GwState}
    {p : Packer RoutedPdu} (h : History map tr s p) (hshort : Short (contents p)) :
    pendingPdus s = some (p.pending.map RoutedPdu.toPdu) := by
  have hpending : Short p.pending := fun r hr => hshort r
    (List.mem_append_left _ (List.mem_append_right _ hr))
  unfold pendingPdus
  rw [h.sim.pending]
  by_cases hnil : p.pending = []
  · rw [hnil]; rfl
  · rw [if_pos (by simpa using hnil), h.sim.bytes hnil hpending, parseContainer_containerBytes]

theorem overflowPdus_of_history {T : RoutingTable} {tr : List GwEvent} {s : GwState}
    {p : Packer RoutedPdu} (h : History T.rows tr s p) :
    overflowPdus T s = some (p.carry.toList.map RoutedPdu.toPdu) := by
  unfold overflowPdus
  cases hov : s.hasOverflowPdu with
  | false => rw [h.sim.of_carry_none hov]; rfl
  | true =>
    obtain ⟨r, hr⟩ := Option.isSome_iff_exists.1 (h.sim.carried hov)
    have hroute : route T.rows s.overflowPdu = some r := by
      rw [← hr, h.sim.carry, hov, if_pos rfl]
    rw [if_pos rfl, ← route_map_toPdu, hroute, hr]
    rfl

theorem received_run {map : List CanIdToPduId} {u : UninitLocals} {is : List GwInput} {s : GwState}
    {tr : List GwEvent} (hrun : (gateway map).run (GwState.start u) is = some (s, tr)) :
    received tr = (gateway map).collect dequeuedBy (GwState.start u) is := by
  refine ((gateway map).run_collect (fun s ms tr => (∃ p, History map tr s p) ∧ received tr = ms) ?_
    ⟨⟨empty, history_start map u⟩, rfl⟩ hrun).2
  rintro s ms tr i s₁ es ⟨⟨p, h⟩, rfl⟩ hs
  refine ⟨⟨_, history_step h hs⟩, ?_⟩
  rw [received_append, (received_round h hs).1]
  rfl

/-- **Conservation and order.**  Every run comes back, and the records of the closed
containers, those of the pending container and the overflow PDU are together the
dequeued messages that have a route. -/
theorem gateway_conservation (T : RoutingTable) (u : UninitLocals) (is : List GwInput)
    (hshort : ∀ i ∈ is, ShortInput i) :
    ∃ s tr closed pending overflow,
      (gateway T.rows).run (GwState.start u) is = some (s, tr) ∧
      closedPdus tr = some closed ∧ pendingPdus s = some pending ∧
      overflowPdus T s = some overflow ∧
      received tr = (gateway T.rows).collect dequeuedBy (GwState.start u) is ∧
      closed ++ pending ++ overflow = (received tr).filterMap (translate T) := by
  obtain ⟨s, tr, hrun⟩ := gateway_run_total T (GwState.start u) is
  obtain ⟨p, h, hp⟩ := history_run_short hshort hrun
  refine ⟨s, tr, _, _, _, hrun, closedPdus_of_history h hp, pendingPdus_of_history h hp,
    overflowPdus_of_history h, received_run hrun, ?_⟩
  rw [← map_toPdu_filterMap_route, ← h.contents]
  unfold contents
  rw [List.map_append, List.map_append]

/-- A message without a route, one that goes with the gate open, and 23 of 64 bytes behind
the gate: the last one overflows. -/
def overflowRounds : List GwInput :=
  [.granting (some (.blank 9 0)) false 0, .granting (some (.blank 1 2)) true 0] ++
    List.replicate 23 (.granting (some (.blank 1 64)) false 0)

theorem gateway_conservation_overflow :
    ∃ s tr closed pending overflow,
      (gateway shippedTable.rows).run (GwState.start .zero) overflowRounds = some (s, tr) ∧
      closedPdus tr = some closed ∧ pendingPdus s = some pending ∧
      overflowPdus shippedTable s = some overflow ∧
      received tr = (gateway shippedTable.rows).collect dequeuedBy (GwState.start .zero) overflowRounds ∧
      closed ++ pending ++ overflow = (received tr).filterMap (translate shippedTable) :=
  gateway_conservation shippedTable .zero overflowRounds (by decide)

example : ((gateway shippedTable.rows).run (GwState.start .zero) overflowRounds).map
    (fun r => ((closings r.2).length, r.1.hasOverflowPdu)) = some (2, true) := by
  decide +kernel

end CanTsn
