import CanTsnGateway.Gateway.GateUse

/-!
# What an open gate does to a pending container

The send decision stands at the end of a round, and a message without a route leaves the
round before it.  A round that finds the gate of FIFO 0 open closes and offers the pending
container if and only if it does not take such a message (`openGateFlushes_iff`).  A queue
of such messages keeps a container waiting through an open gate for any number of rounds
(`unmapped_messages_starve`).
-/

namespace CanTsn

open Packer StepMachine

/-- The pending container is gone: closed, with what was in it first, and offered to the
driver. -/
structure Flushed (past : List GwEvent) (s₁ : GwState) (es : List GwEvent) : Prop where
  pending : s₁.containerPending = false
  offered : ∃ fifoIdx lenByte res, .provided fifoIdx lenByte res ∈ es
  closed : ∃ rs, closedRecords (past ++ es) = closedRecords past ++ [openRecords past ++ rs]

/-- With a record in the pending container and the gate open, the round flushes. -/
def OpenGateFlushes (past : List (UInt64 × GwEvent)) (s : GwState) (i : UInt64 × GwInput) (s₁ : GwState)
    (es : List (UInt64 × GwEvent)) : Prop :=
  s.containerPending = true → openRecords (events past) ≠ [] →
    tasIsGateOpenFifox gclMirror i.1 0 = true → Flushed (events past) s₁ (events es)

/-- With a container pending and the gate open, the queue's message has a route. -/
def RoutesWhenOpen (map : List CanIdToPduId) (s : GwState) (i : UInt64 × GwInput) : Prop :=
  s.containerPending = true → tasIsGateOpenFifox gclMirror i.1 0 = true →
    ∀ m, i.2.queue = some m → (route map m).isSome = true

/-! ## One round -/

theorem openRecords_ne_nil {map : List CanIdToPduId} {tr : List GwEvent} {s : GwState}
    {p : Packer RoutedPdu} (h : History map tr s p) (hpending : s.containerPending = true) :
    openRecords tr ≠ [] := by
  rw [h.opened]
  rw [h.sim.pending] at hpending
  simpa using hpending

/-- With a container pending the round asks the queue. -/
theorem taken_of_pending {map : List CanIdToPduId} {tr : List GwEvent} {s : GwState}
    {p : Packer RoutedPdu} (h : History map tr s p) (hpending : s.containerPending = true) (i : GwInput) :
    taken s i = i.queue := taken_of_no_overflow (h.not_overflow_of_pending hpending) i

theorem skips_iff_of_pending {map : List CanIdToPduId} {tr : List GwEvent} {s : GwState}
    {p : Packer RoutedPdu} (h : History map tr s p) (hpending : s.containerPending = true) (i : GwInput) :
    Skips map s i ↔ ∃ m, i.queue = some m ∧ route map m = none := by
  unfold Skips routed
  rw [taken_of_pending h hpending]
  cases i.queue with
  | none => simp
  | some m => simp

/-- What the round takes goes behind what the container holds. -/
theorem take_pending_append {map : List CanIdToPduId} {s : GwState} {p : Packer RoutedPdu} (i : GwInput)
    (h : Sim map s p) :
    ∃ rs, (take RoutedPdu.size 2 containerRoom p (routed map s i)).pending = p.pending ++ rs :=
  take_pending_of (Q := fun rs => ∃ rs', rs = p.pending ++ rs') h ⟨[], (List.append_nil _).symm⟩
    fun r _ _ => ⟨[r], rfl⟩

theorem flushed_of_offers {map : List CanIdToPduId} {tr es : List GwEvent} {s s₁ : GwState} {i : GwInput}
    {p : Packer RoutedPdu} (h : History map tr s p) (hs : ethPduSendTas map s i = some (s₁, es))
    (ho : Offers map s i) : Flushed tr s₁ es := by
  obtain ⟨rs, hrs⟩ := take_pending_append i h.sim
  rcases round_offers h hs with ⟨hno, -⟩ | ⟨-, s₂, e₁, cause, hsend, hq, hopen, rfl⟩
  · exact absurd ho hno
  · refine ⟨?_, ⟨_, _, _, List.mem_append_right e₁ List.mem_cons_self⟩, rs, ?_⟩
    · have hcl := (closes_take_iff (i := i) h).2 ho.2
      rw [(history_step h hs).sim.pending, packRound, if_neg ho.1, step, close, if_pos hcl]
      rfl
    · rw [← List.append_assoc, closedRecords_sent, hopen, hrs, h.opened]
      rw [closedRecords, closedFrom_append, closedFrom_of_quiet hq, List.append_nil]
      rfl

/-- **A round with the gate open** flushes unless it takes a message without a route. -/
theorem flushed_iff {map : List CanIdToPduId} {tr es : List GwEvent} {s s₁ : GwState} {i : GwInput}
    {p : Packer RoutedPdu} (h : History map tr s p) (hs : ethPduSendTas map s i = some (s₁, es))
    (hpending : s.containerPending = true) (hgate : i.gateOpen = true) :
    Flushed tr s₁ es ↔ ∀ m, i.queue = some m → (route map m).isSome = true := by
  have hskips := skips_iff_of_pending h hpending i
  constructor
  · intro hf m hq
    rcases round_cases h hs with ⟨-, m', -, -, -, rfl, -⟩ | ⟨hsk, -⟩
    · -- the round has left the state alone
      rw [hf.pending] at hpending
      cases hpending
    · cases hr : route map m with
      | some r => rfl
      | none => exact absurd (hskips.2 ⟨m, hq, hr⟩) hsk
  · intro hroutes
    refine flushed_of_offers h hs ⟨fun hsk => ?_, Or.inl hpending, Or.inl hgate⟩
    obtain ⟨m, hq, hr⟩ := hskips.1 hsk
    have := hroutes m hq
    rw [hr] at this
    cases this

/-! ## Runs -/

/-- **An open gate flushes** the pending container in every round of a run if and only if
no round with a container pending and the gate open takes a message without a route. -/
theorem openGateFlushes_iff (map : List CanIdToPduId) (u : UninitLocals) (is : List (UInt64 × GwInput))
    (s : GwState) (tr : List (UInt64 × GwEvent))
    (hrun : (clockedGateway map).run (GwState.start u) is = some (s, tr)) :
    (clockedGateway map).EveryStep OpenGateFlushes [] (GwState.start u) is ↔
      (clockedGateway map).AllSteps (RoutesWhenOpen map) (GwState.start u) is := by
  have h₀ : ∃ p, History map (events []) (GwState.start u) p := ⟨empty, history_start map u⟩
  refine ((clockedGateway map).allSteps_iff_everyStep (fun s tr => ∃ p, History map (events tr) s p) ?_
    h₀ hrun).symm
  rintro s tr i s₁ es ⟨p, h⟩ hs
  refine ⟨⟨_, (clocked_step h hs).1⟩, ?_⟩
  obtain ⟨⟨s', es'⟩, hs', heq⟩ := Option.map_eq_some_iff.1 hs
  obtain ⟨rfl, rfl⟩ := Prod.mk.inj heq
  have hevents : events (es'.map fun e => (i.1, e)) = es' := by
    rw [events, List.map_map]
    exact List.map_id es'
  unfold RoutesWhenOpen OpenGateFlushes
  rw [hevents]
  constructor
  · intro hc hpending _ hgate
    exact (flushed_iff h hs' hpending hgate).2 (hc hpending hgate)
  · intro hf hpending hgate
    exact (flushed_iff h hs' hpending hgate).1 (hf hpending (openRecords_ne_nil h hpending) hgate)

theorem clockedGateway_run_total (T : RoutingTable) (s : GwState) (is : List (UInt64 × GwInput)) :
    ∃ s₁ tr, (clockedGateway T.rows).run s is = some (s₁, tr) := by
  refine (clockedGateway T.rows).run_total (fun _ => True) (fun s i _ => ?_) trivial is
  obtain ⟨s₁, es, hs⟩ := ethPduSendTas_total T s (i.2.atClock i.1)
  exact ⟨s₁, _, clockedGateway_step hs, trivial⟩

/-- A message behind the closed gate, then nothing from the queue with the gate open. -/
theorem openGateFlushes_idle :
    ∃ s tr, (clockedGateway canPduMap).run (GwState.start .zero)
        [(5000000, .granting (some (.blank 1 0)) false 0), (0, .granting none false 0)] = some (s, tr) ∧
      (clockedGateway canPduMap).EveryStep OpenGateFlushes [] (GwState.start .zero)
        [(5000000, .granting (some (.blank 1 0)) false 0), (0, .granting none false 0)] := by
  obtain ⟨s, tr, hrun⟩ := clockedGateway_run_total shippedTable (GwState.start .zero)
    [(5000000, .granting (some (.blank 1 0)) false 0), (0, .granting none false 0)]
  refine ⟨s, tr, hrun, (openGateFlushes_iff canPduMap .zero _ s tr hrun).2 ?_⟩
  exact ⟨fun hpending => Bool.noConfusion hpending, fun _ _ _ => ⟨fun _ _ _ => nofun, fun _ _ _ => trivial⟩⟩

/-! ## Messages without a route -/

/-- A round that takes a message without a route leaves everything as it is. -/
theorem ethPduSendTas_unrouted (T : RoutingTable) {s : GwState} {i : GwInput} {m : FlexcanIpMsgBuff}
    (hov : s.hasOverflowPdu = false) (hq : i.queue = some m) (hr : route T.rows m = none) :
    ethPduSendTas T.rows s i = some (s, [.received m, .ignored m]) := by
  obtain ⟨s₁, es, hs⟩ := ethPduSendTas_total T s i
  have htaken : taken s i = some m := (taken_of_no_overflow hov i).trans hq
  rcases ethPduSendTas_cases hs with ⟨hm, -⟩ | ⟨m', hm, -, rfl, rfl⟩ | ⟨m', r, _, _, hm, hr', -⟩
  · rw [htaken] at hm
    cases hm
  · obtain rfl := Option.some.inj (htaken.symm.trans hm)
    rw [hs, released_eq hov, receiveEvents_eq, hov, hq]
    rfl
  · obtain rfl := Option.some.inj (htaken.symm.trans hm)
    rw [hr] at hr'
    cases hr'

/-- A message with identifier 9, which the shipped table does not have. -/
def unmappedRound (now : UInt64) : UInt64 × GwInput := (now, .granting (some (.blank 9 0)) false 0)

theorem step_unmapped {s : GwState} (hov : s.hasOverflowPdu = false) (now : UInt64) :
    (clockedGateway canPduMap).step s (unmappedRound now) =
      some (s, [(now, .received (.blank 9 0)), (now, .ignored (.blank 9 0))]) := by
  exact clockedGateway_step (ethPduSendTas_unrouted shippedTable hov rfl rfl)

theorem run_unmapped {s : GwState} (hov : s.hasOverflowPdu = false) (nows : List UInt64) :
    ∃ tr, (clockedGateway canPduMap).run s (nows.map unmappedRound) = some (s, tr) ∧
      ∀ e ∈ tr, e.2.isSend = false := by
  induction nows with
  | nil => exact ⟨[], rfl, nofun⟩
  | cons now nows ih =>
    obtain ⟨tr, hrun, htr⟩ := ih
    refine ⟨_, ((clockedGateway canPduMap).run_cons_eq_some _ _ _ _ _).2
      ⟨_, _, _, step_unmapped hov now, hrun, rfl⟩, fun e he => ?_⟩
    rcases List.mem_append.1 he with he | he
    · simp only [List.mem_cons, List.not_mem_nil, or_false] at he
      rcases he with rfl | rfl <;> rfl
    · exact htr e he

/-- A message behind the closed gate, then messages with an identifier that the table does
not have: whatever the clock says, the container stays pending and no round offers it. -/
theorem unmapped_messages_starve :
    (∀ nows : List UInt64, ∃ s tr, (clockedGateway canPduMap).run (GwState.start .zero)
        ((5000000, .granting (some (.blank 1 0)) false 0) :: nows.map unmappedRound) = some (s, tr) ∧
      s.containerPending = true ∧ ∀ e ∈ tr, e.2.isSend = false) ∧
    ¬ ∀ (map : List CanIdToPduId) (u : UninitLocals) (is : List (UInt64 × GwInput)) (s : GwState)
      (tr : List (UInt64 × GwEvent)), (clockedGateway map).run (GwState.start u) is = some (s, tr) →
      (clockedGateway map).EveryStep OpenGateFlushes [] (GwState.start u) is := by
  obtain ⟨s, es, hs, hpending, hov, hquiet⟩ : ∃ s es, (clockedGateway canPduMap).step (GwState.start .zero)
      (5000000, .granting (some (.blank 1 0)) false 0) = some (s, es) ∧ s.containerPending = true ∧
        s.hasOverflowPdu = false ∧ ∀ e ∈ es, e.2.isSend = false :=
    ⟨_, _, rfl, rfl, rfl, by decide⟩
  have hstarve : ∀ nows : List UInt64, ∃ tr, (clockedGateway canPduMap).run (GwState.start .zero)
      ((5000000, .granting (some (.blank 1 0)) false 0) :: nows.map unmappedRound) = some (s, tr) ∧
        ∀ e ∈ tr, e.2.isSend = false := by
    intro nows
    obtain ⟨tr, hrun, htr⟩ := run_unmapped hov nows
    refine ⟨es ++ tr, ((clockedGateway canPduMap).run_cons_eq_some _ _ _ _ _).2 ⟨s, es, tr, hs, hrun, rfl⟩,
      fun e he => ?_⟩
    rcases List.mem_append.1 he with he | he
    · exact hquiet e he
    · exact htr e he
  refine ⟨fun nows => ?_, fun hall => ?_⟩
  · obtain ⟨tr, hrun, htr⟩ := hstarve nows
    exact ⟨s, tr, hrun, hpending, htr⟩
  · obtain ⟨tr, hrun, -⟩ := hstarve [0]
    have hfirst := hall canPduMap .zero _ s tr hrun s es hs
    have hsecond := hfirst.2 s _ (step_unmapped hov 0)
    have h := (clocked_step (show History _ (events []) _ _ from history_start canPduMap .zero) hs).1
    have hflushed := hsecond.1 hpending (openRecords_ne_nil h hpending) rfl
    rw [hflushed.pending] at hpending
    cases hpending

end CanTsn
