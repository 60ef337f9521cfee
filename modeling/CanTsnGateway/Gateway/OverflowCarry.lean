import CanTsnGateway.Gateway.Filling

/-!
# The overflow PDU

A PDU that does not fit is kept in `overflowPdu` until the next round.  The assignment
there is not guarded; that it never loses a PDU follows from what a round does
(`overflow_carry_safe`):

    a PDU overflows        → nothing was held, the pending container is closed
    an overflow PDU is held → no container is pending, the round appends it as the first record

So a PDU overflows at most once, and a round with an overflow PDU always comes back.
-/

namespace CanTsn

open Packer StepMachine

/-- The PDUs put into `overflowPdu`. -/
def carriedPdus (tr : List GwEvent) : List RoutedPdu :=
  tr.filterMap fun e => match e with
    | .carried r => some r
    | _ => none

/-- The PDUs appended to a container. -/
def appendedPdus (tr : List GwEvent) : List RoutedPdu :=
  tr.filterMap fun e => match e with
    | .appended r => some r
    | _ => none

/-- A round starts with an overflow PDU: the queue is not asked, and the PDU becomes the
first record of a new container. -/
structure ProcessesOverflow (map : List CanIdToPduId) (past : List GwEvent) (s s₁ : GwState)
    (es : List GwEvent) (r : RoutedPdu) : Prop where
  routed : route map s.overflowPdu = some r
  received : received es = []
  fresh : openRecords past = []
  appended : appendedPdus es = [r]
  carried : carriedPdus es = []
  released : s₁.hasOverflowPdu = false

/-- A PDU overflows in a round: the slot was free, the PDU is the message just received, and
the container it did not fit is closed without it. -/
structure Overflows (map : List CanIdToPduId) (past : List GwEvent) (s s₁ : GwState) (es : List GwEvent)
    (r : RoutedPdu) : Prop where
  free : s.hasOverflowPdu = false
  routed : route map r.msg = some r
  received : received es = [r.msg]
  appended : appendedPdus es = []
  carried : carriedPdus es = [r]
  held : s₁.hasOverflowPdu = true ∧ s₁.overflowPdu = r.msg
  pending : s₁.containerPending = false
  nonempty : openRecords past ≠ []
  closed : closedRecords (past ++ es) = closedRecords past ++ [openRecords past]

/-! ## The moves of a round -/

@[simp] theorem carriedPdus_append (tr es : List GwEvent) :
    carriedPdus (tr ++ es) = carriedPdus tr ++ carriedPdus es := List.filterMap_append

@[simp] theorem appendedPdus_append (tr es : List GwEvent) :
    appendedPdus (tr ++ es) = appendedPdus tr ++ appendedPdus es := List.filterMap_append

theorem moves_receiveEvents (s : GwState) (i : GwInput) :
    carriedPdus (receiveEvents s i) = [] ∧ appendedPdus (receiveEvents s i) = [] := by
  rw [receiveEvents_eq]
  cases s.hasOverflowPdu <;> cases i.queue <;> exact ⟨rfl, rfl⟩

theorem moves_startContainer (s : GwState) (msgTC : UInt8) :
    carriedPdus (startContainer s msgTC).2 = [] ∧ appendedPdus (startContainer s msgTC).2 = [] := by
  unfold startContainer
  split <;> exact ⟨rfl, rfl⟩

theorem moves_sendPhase (s : GwState) (i : GwInput) :
    carriedPdus (sendPhase s i).2 = [] ∧ appendedPdus (sendPhase s i).2 = [] := by
  rcases sendPhase_events s i with ⟨-, hnil⟩ | ⟨cause, -, hev⟩
  · rw [hnil]
    exact ⟨rfl, rfl⟩
  · rw [hev]
    unfold sendEvents bufferEvents
    cases i.provide <;> exact ⟨rfl, rfl⟩

/-- The record fits behind those of the pending container. -/
abbrev FitsBehind (rs : List RoutedPdu) (r : RoutedPdu) : Prop := 2 + recordsLoad rs + r.size ≤ containerRoom

theorem moves_addPdu {s : GwState} {rs : List RoutedPdu} {msgTC : UInt8} (i : GwInput) (r : RoutedPdu)
    (h : Opened s msgTC rs) :
    carriedPdus (addPdu s i r).2 = (if FitsBehind rs r then [] else [r]) ∧
    appendedPdus (addPdu s i r).2 = (if FitsBehind rs r then [r] else []) ∧
    (¬ FitsBehind rs r → (addPdu s i r).1.overflowPdu = r.msg) := by
  unfold addPdu
  simp only [toNat_requiredSpace r, h.len]
  by_cases hf : FitsBehind rs r
  · rw [if_pos (show _ ≤ containerMaxSize - 18 from hf), if_pos hf, if_pos hf]
    exact ⟨rfl, rfl, fun hno => absurd hf hno⟩
  · rw [if_neg (show ¬ _ ≤ containerMaxSize - 18 from hf), if_neg hf, if_neg hf]
    exact ⟨rfl, rfl, fun _ => rfl⟩

/-- A round moves the routed message it works on, or nothing. -/
theorem moves_round {map : List CanIdToPduId} {tr es : List GwEvent} {s s₁ : GwState} {i : GwInput}
    {p : Packer RoutedPdu} (h : History map tr s p) (hs : ethPduSendTas map s i = some (s₁, es)) :
    (routed map s i = none ∧ carriedPdus es = [] ∧ appendedPdus es = []) ∨
    ∃ r, routed map s i = some r ∧ carriedPdus es = (if FitsBehind p.pending r then [] else [r]) ∧
      appendedPdus es = (if FitsBehind p.pending r then [r] else []) ∧
      (¬ FitsBehind p.pending r → s₁.overflowPdu = r.msg) := by
  obtain ⟨hrc, hra⟩ := moves_receiveEvents s i
  rcases ethPduSendTas_cases hs with ⟨hm, -, rfl⟩ | ⟨m, hm, hr, -, rfl⟩ |
    ⟨m, r, s₂, s₃, hm, hr, rfl, rfl, rfl, rfl⟩
  · obtain ⟨hc, ha⟩ := moves_sendPhase { s with hasOverflowPdu := false } i
    refine Or.inl ⟨routed_eq_none_of_taken map hm, ?_, ?_⟩
    · rw [carriedPdus_append, hrc, hc]; rfl
    · rw [appendedPdus_append, hra, ha]; rfl
  · refine Or.inl ⟨(routed_of_taken map hm).trans hr, ?_, ?_⟩
    · rw [carriedPdus_append, hrc]; rfl
    · rw [appendedPdus_append, hra]; rfl
  · have hopened := opened_startContainer h.sim r.msgTC
    obtain ⟨hsc, hsa⟩ := moves_startContainer { s with hasOverflowPdu := false } r.msgTC
    generalize startContainer { s with hasOverflowPdu := false } r.msgTC = s₂ at hopened hsc hsa ⊢
    obtain ⟨hac, haa, hheld⟩ := moves_addPdu i r hopened
    obtain ⟨hc, ha⟩ := moves_sendPhase (addPdu s₂.1 i r).1 i
    refine Or.inr ⟨r, (routed_of_taken map hm).trans hr, ?_, ?_, fun hno => ?_⟩
    · simp only [carriedPdus_append, hrc, hsc, hac, hc, List.nil_append, List.append_nil]
    · simp only [appendedPdus_append, hra, hsa, haa, ha, List.nil_append, List.append_nil]
    · rw [(sendPhase_state _ i).1]
      exact hheld hno

/-! ## Rounds -/

/-- The overflow PDU is the routed message of the next round. -/
theorem routed_of_overflow {map : List CanIdToPduId} {tr : List GwEvent} {s : GwState}
    {p : Packer RoutedPdu} (h : History map tr s p) (hov : s.hasOverflowPdu = true) (i : GwInput) :
    ∃ r, route map s.overflowPdu = some r ∧ routed map s i = some r := by
  have hcarry := h.sim.carry
  rw [if_pos hov] at hcarry
  obtain ⟨r, hr⟩ := Option.isSome_iff_exists.1 (h.sim.carried hov)
  exact ⟨r, hcarry.symm.trans hr, (h.sim.carry_of_overflow hov i).symm.trans hr⟩

/-- The slot after a round with a routed message: the message, if it did not fit. -/
theorem hasOverflowPdu_round {map : List CanIdToPduId} {tr es : List GwEvent} {s s₁ : GwState}
    {i : GwInput} {p : Packer RoutedPdu} {r : RoutedPdu} (h : History map tr s p)
    (hs : ethPduSendTas map s i = some (s₁, es)) (hr : routed map s i = some r) :
    s₁.hasOverflowPdu = !decide (FitsBehind p.pending r) := by
  have h₁ := history_step h hs
  rw [packRound, if_neg (not_skips_of_routed hr), step, take_routed i h.sim, hr] at h₁
  rw [← h₁.sim.carry_isSome, carry_close]
  simp only [put]
  by_cases hf : FitsBehind p.pending r
  · rw [if_pos hf, decide_eq_true hf]
    rfl
  · rw [if_neg hf, decide_eq_false hf]
    rfl

theorem processesOverflow_round {map : List CanIdToPduId} {tr es : List GwEvent} {s s₁ : GwState}
    {i : GwInput} {p : Packer RoutedPdu} (h : History map tr s p)
    (hs : ethPduSendTas map s i = some (s₁, es)) (hov : s.hasOverflowPdu = true) :
    ∃ r, ProcessesOverflow map tr s s₁ es r := by
  obtain ⟨r, hroute, hrouted⟩ := routed_of_overflow h hov i
  have hnil : p.pending = [] := h.wf.carry_open (h.sim.carried hov)
  -- any record fits an empty container
  have hfit : FitsBehind p.pending r := by
    rw [hnil]
    exact single_fits r
  rcases moves_round h hs with ⟨hnone, -⟩ | ⟨r', hr', hc, ha, -⟩
  · rw [hrouted] at hnone
    cases hnone
  · obtain rfl := Option.some.inj (hrouted.symm.trans hr')
    rw [if_pos hfit] at hc ha
    refine ⟨r, hroute, ?_, by rw [h.opened, hnil], ha, hc, ?_⟩
    · rw [(received_round h hs).1, if_pos hov]
    · rw [hasOverflowPdu_round h hs hrouted, decide_eq_true hfit]
      rfl

theorem overflows_round {map : List CanIdToPduId} {tr es : List GwEvent} {s s₁ : GwState} {i : GwInput}
    {p : Packer RoutedPdu} {r : RoutedPdu} (h : History map tr s p)
    (hs : ethPduSendTas map s i = some (s₁, es)) (hr : r ∈ carriedPdus es) : Overflows map tr s s₁ es r := by
  -- a round with an overflow PDU carries nothing, so the message is the queue's
  have hov : s.hasOverflowPdu = false := by
    cases hov : s.hasOverflowPdu with
    | false => rfl
    | true =>
      obtain ⟨r', hp⟩ := processesOverflow_round h hs hov
      rw [hp.carried] at hr
      cases hr
  rcases moves_round h hs with ⟨-, hc, -⟩ | ⟨r', hrouted, hc, ha, hheld⟩
  · rw [hc] at hr
    cases hr
  · have hover : ¬ FitsBehind p.pending r' := by
      intro hf
      rw [hc, if_pos hf] at hr
      cases hr
    rw [if_neg hover] at hc ha
    obtain rfl : r = r' := by
      rw [hc] at hr
      exact List.mem_singleton.1 hr
    have hne : p.pending ≠ [] := by
      intro hnil
      rw [hnil] at hover
      exact hover (single_fits r)
    have hq : i.queue = some r.msg ∧ route map r.msg = some r := by
      rw [routed, taken_of_no_overflow hov] at hrouted
      obtain ⟨m, hm, hroute⟩ := Option.bind_eq_some_iff.1 hrouted
      rw [route_msg hroute]
      exact ⟨hm, hroute⟩
    have hpack : packRound map s i p = ⟨p.closed ++ [p.pending], [], some r⟩ := by
      rw [packRound, if_neg (not_skips_of_routed hrouted), step, take_routed i h.sim, hrouted]
      simp only [put]
      rw [if_neg hover, close, if_pos (by simp [closes, hne])]
    have h₁ := history_step h hs
    rw [hpack] at h₁
    refine ⟨hov, hq.2, ?_, ha, hc, ⟨?_, hheld hover⟩, h₁.sim.pending, ?_, ?_⟩
    · rw [(received_round h hs).1, hov, hq.1]
      rfl
    · rw [hasOverflowPdu_round h hs hrouted, decide_eq_false hover]
      rfl
    · rw [h.opened]
      exact hne
    · rw [h₁.records, h.records, h.opened]

/-- The overflow PDU has been looked up before, so its lookup comes back. -/
theorem round_of_overflow {map : List CanIdToPduId} {tr : List GwEvent} {s : GwState} {p : Packer RoutedPdu}
    (h : History map tr s p) (hov : s.hasOverflowPdu = true) (i : GwInput) :
    ∃ s₁ es, ethPduSendTas map s i = some (s₁, es) := by
  obtain ⟨r, hroute, -⟩ := routed_of_overflow h hov i
  refine ethPduSendTas_comes_back fun m hm hl => ?_
  rw [taken, if_pos hov] at hm
  obtain rfl := Option.some.inj hm
  rw [route, hl] at hroute
  cases hroute

/-! ## Runs -/

theorem carried_sublist_received {map : List CanIdToPduId} {u : UninitLocals} {is : List GwInput} {s : GwState}
    {tr : List GwEvent} (hrun : (gateway map).run (GwState.start u) is = some (s, tr)) :
    ((carriedPdus tr).map RoutedPdu.msg).Sublist (received tr) := by
  refine ((gateway map).run_invariant_always (fun s tr => (∃ p, History map tr s p) ∧
    ((carriedPdus tr).map RoutedPdu.msg).Sublist (received tr)) ?_
    ⟨⟨empty, history_start map u⟩, .slnil⟩ hrun).2
  rintro s tr i s₁ es ⟨⟨p, h⟩, hsub⟩ hs
  refine ⟨⟨_, history_step h hs⟩, ?_⟩
  rw [carriedPdus_append, List.map_append, received_append]
  refine hsub.append ?_
  cases hc : carriedPdus es with
  | nil => exact List.nil_sublist _
  | cons r rs =>
    have ho := overflows_round h hs (hc.symm ▸ List.mem_cons_self)
    rw [ho.carried] at hc
    rw [← hc, ho.received]
    exact List.Sublist.refl _

/-- **The overflow carry is safe and makes progress.**  At every loop head of every run an
overflow PDU leaves no container pending; the next round comes back and makes it the
first record of the next container; a PDU overflows only into a free slot, as the
message just received, and the container it did not fit is closed in that round.  The
overflowed PDUs are received messages, each at most once. -/
theorem overflow_carry_safe (map : List CanIdToPduId) (u : UninitLocals) (is : List GwInput) (s : GwState)
    (tr : List GwEvent) (hrun : (gateway map).run (GwState.start u) is = some (s, tr)) :
    (s.hasOverflowPdu = true → s.containerPending = false) ∧
    (∀ i, s.hasOverflowPdu = true → ∃ s₁ es r, ethPduSendTas map s i = some (s₁, es) ∧
      ProcessesOverflow map tr s s₁ es r) ∧
    (∀ i s₁ es, ethPduSendTas map s i = some (s₁, es) → ∀ r, .carried r ∈ es →
      Overflows map tr s s₁ es r) ∧
    ((carriedPdus tr).map RoutedPdu.msg).Sublist (received tr) := by
  obtain ⟨p, h⟩ := history_run hrun
  refine ⟨h.not_pending_of_overflow, fun i hov => ?_, fun i s₁ es hs r hr => ?_,
    carried_sublist_received hrun⟩
  · obtain ⟨s₁, es, hs⟩ := round_of_overflow h hov i
    obtain ⟨r, hp⟩ := processesOverflow_round h hs hov
    exact ⟨s₁, es, r, hs, hp⟩
  · exact overflows_round h hs (List.mem_filterMap.2 ⟨_, hr, rfl⟩)

/-- 23 messages of 64 bytes behind a closed gate: the last one overflows. -/
theorem overflow_carry_safe_full :
    ∃ s tr, (gateway canPduMap).run (GwState.start .zero) (List.replicate 23 (blankRound 64 false 0)) =
        some (s, tr) ∧ s.hasOverflowPdu = true ∧ s.containerPending = false ∧
      (∀ i, ∃ s₁ es r, ethPduSendTas canPduMap s i = some (s₁, es) ∧
        ProcessesOverflow canPduMap tr s s₁ es r) ∧
      (∀ i s₁ es, ethPduSendTas canPduMap s i = some (s₁, es) → ∀ r, .carried r ∈ es →
        Overflows canPduMap tr s s₁ es r) ∧
      ((carriedPdus tr).map RoutedPdu.msg).Sublist (received tr) := by
  obtain ⟨s, tr, hrun, hov⟩ : ∃ s tr, (gateway canPduMap).run (GwState.start .zero)
      (List.replicate 23 (blankRound 64 false 0)) = some (s, tr) ∧ s.hasOverflowPdu = true :=
    ⟨_, _, rfl, rfl⟩
  obtain ⟨hpending, hnext, hcarried, hsub⟩ := overflow_carry_safe canPduMap .zero _ s tr hrun
  exact ⟨s, tr, hrun, hov, hpending hov, fun i => hnext i hov, hcarried, hsub⟩

end CanTsn
