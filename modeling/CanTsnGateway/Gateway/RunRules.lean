import CanTsnGateway.Gateway.Refinement

/-!
# Rules for runs of the gateway

What the queue hands out has at most 64 data bytes (`ShortInput`).  A property of runs is
then shown round by round, with the packer's history at hand (`shortRun_rule`).  Most
events cannot break a property of what is sent; for it there is a rule that leaves the
send section only (`sends_rule`).
-/

namespace CanTsn

open Packer StepMachine

/-! ## Runs on short messages -/

/-- The queue hands out messages of at most 64 data bytes. -/
def ShortInput (i : GwInput) : Prop := ∀ m, i.queue = some m → m.dataLen ≤ 64

instance (i : GwInput) : Decidable (ShortInput i) :=
  inferInstanceAs (Decidable (∀ m ∈ i.queue, m.dataLen ≤ 64))

theorem short_packRound {map : List CanIdToPduId} {tr : List GwEvent} {s : GwState}
    {p : Packer RoutedPdu} {i : GwInput} (h : History map tr s p) (hp : Short (contents p))
    (hi : ShortInput i) : Short (contents (packRound map s i p)) := by
  unfold packRound
  split
  · exact hp
  · rw [contents_packStep h]
    intro r hr
    rcases List.mem_append.1 hr with hr | hr
    · exact hp r hr
    · obtain ⟨m, hm, hroute⟩ := List.mem_filterMap.1 hr
      rw [route_msg hroute]
      split at hm
      · cases hm
      · exact hi m (Option.mem_toList.1 hm)

theorem short_taken {map : List CanIdToPduId} {s : GwState} {p : Packer RoutedPdu} {i : GwInput}
    (hsk : ¬ Skips map s i) (h : Short (contents (packRound map s i p))) :
    Short (take RoutedPdu.size 2 containerRoom p (routed map s i)).pending := by
  rw [packRound, if_neg hsk, step, contents_close] at h
  intro r hr
  refine h r ?_
  unfold contents
  simp [hr]

/-! ## The messages of a round -/

/-- A message from the queue is ignored or routed. -/
theorem received_round {map : List CanIdToPduId} {tr es : List GwEvent} {s s' : GwState} {i : GwInput}
    {p : Packer RoutedPdu} (h : History map tr s p) (hs : ethPduSendTas map s i = some (s', es)) :
    received es = (if s.hasOverflowPdu then [] else i.queue.toList) ∧
    (received es).length = (ignored es).length + ((received es).filterMap (route map)).length := by
  rcases round_cases h hs with ⟨-, m, hov, hq, hr, rfl, rfl⟩ | ⟨hsk, s₁, e₁, hl, rfl, rfl⟩
  · rw [hov, hq]
    refine ⟨rfl, ?_⟩
    simp [received, ignored, hr]
  · obtain ⟨hrecv, hign⟩ := trace_sendPhase s₁ i
    rw [received_append, ignored_append, hl.received, hrecv, hl.ignored, hign, List.append_nil]
    refine ⟨rfl, ?_⟩
    cases hov : s.hasOverflowPdu with
    | true => rfl
    | false =>
      cases hq : i.queue with
      | none => rfl
      | some m =>
        have htaken : taken s i = some m := (taken_of_no_overflow hov i).trans hq
        cases hr : route map m with
        | none =>
          exact absurd ⟨by rw [htaken]; rfl, (routed_of_taken map htaken).trans hr⟩ hsk
        | some r => simp [hr]

/-! ## The open container -/

/-- What holds of the open container and of it with a fitting message behind it holds
after sections 1 and 2. -/
theorem take_pending_of {map : List CanIdToPduId} {s : GwState} {i : GwInput} {p : Packer RoutedPdu}
    {Q : List RoutedPdu → Prop} (h : Sim map s p) (hp : Q p.pending)
    (hadd : ∀ r, routed map s i = some r → 2 + recordsLoad p.pending + r.size ≤ containerRoom →
      Q (p.pending ++ [r])) :
    Q (take RoutedPdu.size 2 containerRoom p (routed map s i)).pending := by
  rw [take_routed i h]
  cases hr : routed map s i with
  | none => exact hp
  | some r =>
    simp only [put]
    split
    · next hfit => exact hadd r hr hfit
    · exact hp

/-- The length a container has before a record is added: a new one has its header. -/
def heldLen (s : GwState) : Nat := if s.containerPending then s.containerLen.toNat else 2

theorem heldLen_eq {map : List CanIdToPduId} {s : GwState} {p : Packer RoutedPdu} (h : Sim map s p) :
    heldLen s = 2 + recordsLoad p.pending := by
  have hlen := h.len
  unfold heldLen
  rw [h.pending]
  by_cases hnil : p.pending = []
  · rw [hnil]; rfl
  · rw [if_neg hnil] at hlen
    rw [if_pos (by simpa using hnil), hlen]

/-- The length on which a round decides to send. -/
def loadedLen (map : List CanIdToPduId) (s : GwState) (i : GwInput) : Nat :=
  match routed map s i with
  | some r => if heldLen s + r.size ≤ containerRoom then heldLen s + r.size else heldLen s
  | none => heldLen s

theorem recordsLoad_snoc (rs : List RoutedPdu) (r : RoutedPdu) :
    recordsLoad (rs ++ [r]) = recordsLoad rs + r.size := by
  rw [recordsLoad, load_append, load_singleton]

theorem loadedLen_eq {map : List CanIdToPduId} {s : GwState} (i : GwInput) {p : Packer RoutedPdu}
    (h : Sim map s p) : loadedLen map s i =
      2 + recordsLoad (take RoutedPdu.size 2 containerRoom p (routed map s i)).pending := by
  rw [loadedLen, take_routed i h, heldLen_eq h]
  cases routed map s i with
  | none => rfl
  | some r =>
    simp only [put]
    split
    · rw [recordsLoad_snoc, Nat.add_assoc]
    · rfl

/-- The round has something to send and sends it: the gate is open, or the message fills
the container or does not fit. -/
def Offers (map : List CanIdToPduId) (s : GwState) (i : GwInput) : Prop :=
  ¬ Skips map s i ∧ (s.containerPending = true ∨ (routed map s i).isSome = true) ∧
    (i.gateOpen = true ∨ ∃ r, routed map s i = some r ∧ containerRoom ≤ heldLen s + r.size)

theorem closes_take_iff {map : List CanIdToPduId} {tr : List GwEvent} {s : GwState} {i : GwInput}
    {p : Packer RoutedPdu} (h : History map tr s p) :
    closes RoutedPdu.size 2 containerRoom (take RoutedPdu.size 2 containerRoom p (routed map s i))
        i.gateOpen = true ↔
      (s.containerPending = true ∨ (routed map s i).isSome = true) ∧
        (i.gateOpen = true ∨ ∃ r, routed map s i = some r ∧ containerRoom ≤ heldLen s + r.size) := by
  have hroom : 2 + recordsLoad p.pending < containerRoom := h.wf.room
  rw [take_routed i h.sim, heldLen_eq h.sim, h.sim.pending]
  cases hr : routed map s i with
  | none =>
    have hcarry := h.sim.carry_eq_none hr
    have hlt : ¬ containerRoom ≤ 2 + recordsLoad p.pending := by omega
    simp [closes, hcarry, hlt]
  | some r =>
    simp only [put]
    split
    · next hfit =>
      simp [closes, recordsLoad_snoc, or_comm, Nat.add_assoc]
    · next hfit =>
      have hne : p.pending ≠ [] := by
        intro hnil
        have := single_fits r
        rw [hnil, load_nil] at hfit
        omega
      have hover : containerRoom ≤ 2 + recordsLoad p.pending + r.size :=
        Nat.le_of_lt (Nat.lt_of_not_le hfit)
      simp [closes, hne, hover]

/-- Closing leaves an empty container. -/
theorem packRound_pending_of {map : List CanIdToPduId} {s : GwState} {i : GwInput}
    {p : Packer RoutedPdu} {Q : List RoutedPdu → Prop} (hnil : Q []) (hp : Q p.pending)
    (htake : Q (take RoutedPdu.size 2 containerRoom p (routed map s i)).pending) :
    Q (packRound map s i p).pending := by
  unfold packRound step close
  split
  · exact hp
  · split
    · exact hnil
    · exact htake

/-- An overflow PDU is held only while no container is pending. -/
theorem History.not_pending_of_overflow {map : List CanIdToPduId} {tr : List GwEvent} {s : GwState}
    {p : Packer RoutedPdu} (h : History map tr s p) (hov : s.hasOverflowPdu = true) :
    s.containerPending = false := by
  rw [h.sim.pending, h.wf.carry_open (h.sim.carried hov)]
  rfl

theorem History.not_overflow_of_pending {map : List CanIdToPduId} {tr : List GwEvent} {s : GwState}
    {p : Packer RoutedPdu} (h : History map tr s p) (hpending : s.containerPending = true) :
    s.hasOverflowPdu = false := by
  rw [Bool.eq_false_iff]
  intro hov
  rw [h.not_pending_of_overflow hov] at hpending
  cases hpending

/-! ## The rules -/

/-- **Run rule on short messages.** -/
theorem shortRun_rule {map : List CanIdToPduId} {u : UninitLocals} {is : List GwInput} {s : GwState}
    {tr : List GwEvent} (C : GwState → GwInput → Prop)
    (J : Packer RoutedPdu → GwState → List GwEvent → Prop) (h₀ : J empty (GwState.start u) [])
    (hstep : ∀ {tr es s s' i p}, History map tr s p → Short (contents (packRound map s i p)) →
      C s i → J p s tr → ethPduSendTas map s i = some (s', es) →
      J (packRound map s i p) s' (tr ++ es))
    (hshort : ∀ i ∈ is, ShortInput i) (hC : (gateway map).AllSteps C (GwState.start u) is)
    (hrun : (gateway map).run (GwState.start u) is = some (s, tr)) :
    ∃ p, History map tr s p ∧ Short (contents p) ∧ J p s tr := by
  refine (gateway map).run_invariant
    (fun s tr => ∃ p, History map tr s p ∧ Short (contents p) ∧ J p s tr)
    ?_ ⟨empty, history_start map u, by simp [Short, contents, empty], h₀⟩
    (((gateway map).allSteps_of_forall _ is hshort).and _ hC) hrun
  rintro s tr i s' es ⟨p, h, hp, hJ⟩ ⟨hi, hc⟩ hs
  have hp' := short_packRound h hp hi
  exact ⟨packRound map s i p, history_step h hs, hp', hstep h hp' hc hJ hs⟩

theorem history_run_short {map : List CanIdToPduId} {u : UninitLocals} {is : List GwInput}
    {s : GwState} {tr : List GwEvent} (hshort : ∀ i ∈ is, ShortInput i)
    (hrun : (gateway map).run (GwState.start u) is = some (s, tr)) :
    ∃ p, History map tr s p ∧ Short (contents p) := by
  obtain ⟨p, h, hp, -⟩ := shortRun_rule (fun _ _ => True) (fun _ _ _ => True) trivial
    (fun _ _ _ _ _ => trivial) hshort ((gateway map).allSteps_of_forall _ _ fun _ _ => trivial) hrun
  exact ⟨p, h, hp⟩

/-! ## What a send does -/

/-- The copy and the transmit request, when a buffer is granted. -/
def bufferEvents (s : GwState) (i : GwInput) : List GwEvent :=
  match i.provide with
  | .granted bufIdx ethPayload lenByte =>
    [.copied ethPayload lenByte (s.currentContainer.upto s.containerLen.toNat),
      .transmitted bufIdx s.containerLen i.transmitOk]
  | .refused _ _ => []

/-- The container that the send section closes. -/
def GwState.closedContainer (s : GwState) (cause : SendCause) : ClosedContainer :=
  ⟨cause, s.currentTC, tcToFifo s.currentTC, s.currentContainer.upto s.containerLen.toNat⟩

/-- The events of the send section. -/
def sendEvents (s : GwState) (i : GwInput) (cause : SendCause) : List GwEvent :=
  .provided (tcToFifo s.currentTC) txBufferRequest i.provide ::
    (bufferEvents s i ++ [.closed (s.closedContainer cause)])

theorem sendPhase_events (s : GwState) (i : GwInput) :
    (shouldTransmit s i.gateOpen = none ∧ (sendPhase s i).2 = []) ∨
    ∃ cause, shouldTransmit s i.gateOpen = some cause ∧ (sendPhase s i).2 = sendEvents s i cause := by
  unfold sendPhase
  cases hst : shouldTransmit s i.gateOpen with
  | none => exact Or.inl ⟨rfl, rfl⟩
  | some cause =>
    refine Or.inr ⟨cause, rfl, ?_⟩
    unfold sendContainer driverCalls sendEvents bufferEvents
    cases i.provide <;> rfl

theorem closedFrom_sendEvents (rs : List RoutedPdu) (s : GwState) (i : GwInput) (cause : SendCause) :
    closedFrom rs (sendEvents s i cause) = [rs] := by
  unfold sendEvents bufferEvents
  cases i.provide <;> rfl

/-- The send section closes the open records. -/
theorem closedRecords_sent (past : List GwEvent) (s : GwState) (i : GwInput) (cause : SendCause) :
    closedRecords (past ++ sendEvents s i cause) = closedRecords past ++ [openRecords past] := by
  rw [closedRecords, closedFrom_append, closedFrom_sendEvents]
  rfl

/-- A property that the buffer request and the reset cannot break is a property of the
copy and of the transmit request. -/
theorem atEvery_sendEvents_iff {P : List GwEvent → GwEvent → Prop} {past : List GwEvent} {s : GwState}
    {i : GwInput} {cause : SendCause}
    (hprovided : ∀ past fifoIdx lenByte res, P past (.provided fifoIdx lenByte res))
    (hclosed : ∀ past c, P past (.closed c)) :
    AtEvery P past (sendEvents s i cause) ↔
      ∀ bufIdx ethPayload lenByte, i.provide = .granted bufIdx ethPayload lenByte →
        P (past ++ [.provided (tcToFifo s.currentTC) txBufferRequest (.granted bufIdx ethPayload lenByte)])
          (.copied ethPayload lenByte (s.currentContainer.upto s.containerLen.toNat)) ∧
        P (past ++ [.provided (tcToFifo s.currentTC) txBufferRequest (.granted bufIdx ethPayload lenByte)] ++
            [.copied ethPayload lenByte (s.currentContainer.upto s.containerLen.toNat)])
          (.transmitted bufIdx s.containerLen i.transmitOk) := by
  unfold sendEvents bufferEvents
  cases i.provide with
  | refused code lenByte =>
    constructor
    · intro _ _ _ _ hp
      cases hp
    · intro _
      exact ⟨hprovided _ _ _ _, hclosed _ _, trivial⟩
  | granted bufIdx ethPayload lenByte =>
    constructor
    · rintro ⟨-, hcopied, hsent, -, -⟩ _ _ _ ⟨rfl, rfl, rfl⟩
      exact ⟨hcopied, hsent⟩
    · intro h
      obtain ⟨hcopied, hsent⟩ := h bufIdx ethPayload lenByte rfl
      exact ⟨hprovided _ _ _ _, hcopied, hsent, hclosed _ _, trivial⟩

theorem openRecords_loaded {map : List CanIdToPduId} {tr e₁ : List GwEvent} {s s₁ : GwState}
    {i : GwInput} {p : Packer RoutedPdu} (h : History map tr s p) (hl : Loaded map s i p s₁ e₁) :
    openRecords (tr ++ e₁) = (take RoutedPdu.size 2 containerRoom p (routed map s i)).pending := by
  rw [openRecords, openFrom_append]
  show openFrom (openRecords tr) e₁ = _
  rw [h.opened, hl.opened]

/-- The state on which a round decides to send, with the packer it refines. -/
structure Sending (map : List CanIdToPduId) (s : GwState) (i : GwInput) (p : Packer RoutedPdu)
    (s₁ : GwState) (cause : SendCause) : Prop where
  sim : Sim map s₁ (take RoutedPdu.size 2 containerRoom p (routed map s i))
  le : 2 + recordsLoad (take RoutedPdu.size 2 containerRoom p (routed map s i)).pending ≤ containerRoom
  ne_nil : (take RoutedPdu.size 2 containerRoom p (routed map s i)).pending ≠ []
  cause_eq : shouldTransmit s₁ i.gateOpen = some cause

/-- **A round offers a container** to the driver, or it has no send event. -/
theorem round_offers {map : List CanIdToPduId} {tr es : List GwEvent} {s s' : GwState} {i : GwInput}
    {p : Packer RoutedPdu} (h : History map tr s p) (hs : ethPduSendTas map s i = some (s', es)) :
    (¬ Offers map s i ∧ ∀ e ∈ es, e.isSend = false) ∨
    (Offers map s i ∧ ∃ s₁ e₁ cause, Sending map s i p s₁ cause ∧ (∀ e ∈ e₁, e.isSend = false) ∧
      openRecords (tr ++ e₁) = (take RoutedPdu.size 2 containerRoom p (routed map s i)).pending ∧
      es = e₁ ++ sendEvents s₁ i cause) := by
  rcases round_cases h hs with ⟨hsk, m, -, -, -, -, rfl⟩ | ⟨hsk, s₁, e₁, hl, -, rfl⟩
  · refine Or.inl ⟨fun ho => ho.1 hsk, fun e he => ?_⟩
    simp only [List.mem_cons, List.not_mem_nil, or_false] at he
    rcases he with rfl | rfl <;> rfl
  · have hsome := shouldTransmit_isSome hl.sim i.gateOpen
    have hcl := closes_take_iff (i := i) h
    rcases sendPhase_events s₁ i with ⟨hst, hnil⟩ | ⟨cause, hst, hev⟩
    · rw [hst] at hsome
      refine Or.inl ⟨fun ho => ?_, by rw [hnil, List.append_nil]; exact hl.quiet⟩
      rw [hcl.2 ho.2] at hsome
      cases hsome
    · rw [hst] at hsome
      refine Or.inr ⟨⟨hsk, hcl.1 hsome.symm⟩, s₁, e₁, cause, ⟨hl.sim, hl.le, ?_, hst⟩, hl.quiet,
        openRecords_loaded h hl, by rw [hev]⟩
      unfold closes at hsome
      intro hnil
      rw [hnil] at hsome
      cases hsome

/-- **Rule for what is sent.**  `J` is kept by the packer's steps that meet `C`; a property
of events that only the send section can break holds at every event, when every send
from a packer in `J` keeps it. -/
theorem sends_rule {map : List CanIdToPduId} {u : UninitLocals} {is : List GwInput} {s : GwState}
    {tr : List GwEvent} (C : GwState → GwInput → Prop) (J : Packer RoutedPdu → Prop)
    (P : List GwEvent → GwEvent → Prop) (hJ₀ : J empty)
    (hJ : ∀ {tr s i p}, History map tr s p → C s i → J p → J (packRound map s i p))
    (hquiet : ∀ past e, e.isSend = false → P past e)
    (hsend : ∀ {past s s₁ i p cause}, Sending map s i p s₁ cause →
      Short (take RoutedPdu.size 2 containerRoom p (routed map s i)).pending → C s i → J p →
      (∃ tr, History map tr s p) →
      openRecords past = (take RoutedPdu.size 2 containerRoom p (routed map s i)).pending →
      AtEvery P past (sendEvents s₁ i cause))
    (hshort : ∀ i ∈ is, ShortInput i) (hC : (gateway map).AllSteps C (GwState.start u) is)
    (hrun : (gateway map).run (GwState.start u) is = some (s, tr)) : AtEvery P [] tr := by
  refine (shortRun_rule C (fun p _ tr => J p ∧ AtEvery P [] tr) ⟨hJ₀, trivial⟩ ?_
    hshort hC hrun).elim fun _ h => h.2.2.2
  intro tr es s s' i p h hp' hc ⟨hj, hP⟩ hs
  refine ⟨hJ h hc hj, atEvery_append.2 ⟨hP, ?_⟩⟩
  rcases round_offers h hs with ⟨-, hq⟩ | ⟨ho, s₁, e₁, cause, hsend', hq, hopen, rfl⟩
  · exact atEvery_of_forall_mem fun past e he => hquiet past e (hq e he)
  · rw [atEvery_append, List.nil_append]
    exact ⟨atEvery_of_forall_mem fun past e he => hquiet past e (hq e he),
      hsend hsend' (short_taken ho.1 hp') hc hj ⟨tr, h⟩ hopen⟩

end CanTsn
