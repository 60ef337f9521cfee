import CanTsnGateway.Gateway.Conservation
import Mathlib.Tactic.IntervalCases

/-!
# The gate that is tested and the gate that is used

The task asks for the gate of FIFO 0 and sends through the FIFO of the container's class.
`clockedGateway` is the gateway with the gate answers of the software schedule; its events
carry the clock value of their round.  A container that goes because of the gate finds
the gate of its own FIFO open if and only if its most urgent class is at most 2
(`gateUsed_iff`); with the shipped schedule the gates exclude one another, so a container
of class 3 goes while its gate is closed (`gate_tested_not_used`).
-/

namespace CanTsn

open Packer StepMachine

/-- The round with the gate answer at clock value `now`. -/
def GwInput.atClock (i : GwInput) (now : UInt64) : GwInput :=
  { i with gateOpen := tasIsGateOpenFifox gclMirror now 0 }

/-- The gateway with a clock. -/
def clockedGateway (map : List CanIdToPduId) : Machine GwState (UInt64 × GwInput) (UInt64 × GwEvent) where
  step s i := (ethPduSendTas map s (i.2.atClock i.1)).map fun r => (r.1, r.2.map fun e => (i.1, e))

/-- A container closed because of the gate finds the gate of its FIFO open. -/
def GateUsed (e : UInt64 × GwEvent) : Prop :=
  ∀ c, e.2 = .closed c → c.cause = .gate → tasIsGateOpenFifox gclMirror e.1 c.fifoIdx.toUInt32 = true

/-- The most urgent class once the routed message is added. -/
def urgentTC (map : List CanIdToPduId) (s : GwState) (i : GwInput) : UInt8 :=
  match routed map s i with
  | some r => if s.containerPending then (if r.msgTC < s.currentTC then r.msgTC else s.currentTC) else r.msgTC
  | none => s.currentTC

/-- In a round that offers its container with the gate open and room left, the class of
the container maps to FIFO 0. -/
def UrgentEnough (map : List CanIdToPduId) (s : GwState) (i : UInt64 × GwInput) : Prop :=
  Offers map s (i.2.atClock i.1) → tasIsGateOpenFifox gclMirror i.1 0 = true →
    (∀ r, routed map s i.2 = some r → heldLen s + r.size < containerRoom) → urgentTC map s i.2 ≤ 2

/-! ## The class of the container -/

theorem IsMinTC.unique {a b : UInt8} {rs : List RoutedPdu} (ha : IsMinTC a rs) (hb : IsMinTC b rs) :
    a = b := by
  obtain ⟨⟨r, hr, rfl⟩, hmin⟩ := ha
  obtain ⟨⟨r', hr', rfl⟩, hmin'⟩ := hb
  exact UInt8.le_antisymm (hmin r' hr') (hmin' r hr)

theorem isMinTC_urgentTC {map : List CanIdToPduId} {s : GwState} {i : GwInput} {p : Packer RoutedPdu}
    (h : Sim map s p) (hfit : ∀ r, routed map s i = some r → heldLen s + r.size ≤ containerRoom)
    (hne : (take RoutedPdu.size 2 containerRoom p (routed map s i)).pending ≠ []) :
    IsMinTC (urgentTC map s i) (take RoutedPdu.size 2 containerRoom p (routed map s i)).pending := by
  rw [take_routed i h] at hne ⊢
  unfold urgentTC
  cases hr : routed map s i with
  | none =>
    rw [hr] at hne
    exact h.tc hne
  | some r =>
    have hfit' := hfit r hr
    rw [heldLen_eq h] at hfit'
    simp only [put]
    rw [if_pos hfit', h.pending]
    by_cases hnil : p.pending = []
    · rw [hnil]
      exact ⟨⟨r, List.mem_singleton_self r, rfl⟩, fun x hx => by rw [List.mem_singleton.1 hx]; exact UInt8.le_refl _⟩
    · rw [if_pos (by simpa using hnil)]
      exact isMinTC_append r (Or.inr (h.tc hnil))

/-- The gate is the reason when nothing is carried and there is room left. -/
theorem shouldTransmit_gate_iff {map : List CanIdToPduId} {s : GwState} {q : Packer RoutedPdu}
    {gateOpen : Bool} {cause : SendCause} (h : Sim map s q) (hne : q.pending ≠ [])
    (hc : shouldTransmit s gateOpen = some cause) :
    cause = .gate ↔
      gateOpen = true ∧ q.carry = none ∧ 2 + recordsLoad q.pending < containerRoom := by
  have hcarry : q.carry = none ↔ s.hasOverflowPdu = false := by
    rw [← h.carry_isSome, ← Option.not_isSome_iff_eq_none, Bool.not_eq_true]
  have hlen := h.len
  rw [if_neg hne] at hlen
  have hfull : (s.containerLen.toNat ≥ containerMaxSize - 18) ↔
      ¬ 2 + recordsLoad q.pending < containerRoom := by rw [hlen, Nat.not_lt]; exact Iff.rfl
  rw [hcarry]
  unfold shouldTransmit at hc
  split at hc
  · split at hc
    · next hov => cases hc; simp [hov]
    · next hov =>
      split at hc
      · next hfl => cases hc; simp [hfull.1 hfl]
      · next hfl =>
        split at hc
        · next hg => cases hc; simp [hg.1, hov, Decidable.not_not.1 (fun hx => hfl (hfull.2 hx))]
        · cases hc
  · cases hc

/-- When the gate is the reason for a send, in terms of the round. -/
theorem cause_gate_iff {map : List CanIdToPduId} {s s₁ : GwState} {i : GwInput} {p : Packer RoutedPdu}
    {cause : SendCause} (h : Sim map s p) (hroom : 2 + recordsLoad p.pending < containerRoom)
    (hsend : Sending map s i p s₁ cause) :
    cause = .gate ↔
      i.gateOpen = true ∧ ∀ r, routed map s i = some r → heldLen s + r.size < containerRoom := by
  rw [shouldTransmit_gate_iff hsend.sim hsend.ne_nil hsend.cause_eq, take_routed i h, heldLen_eq h]
  cases hr : routed map s i with
  | none =>
    simp [h.carry_eq_none hr, hroom]
  | some r =>
    simp only [put, Option.some.injEq, forall_eq']
    split
    · next hfit => simp [recordsLoad_snoc, Nat.add_assoc]
    · next hfit =>
      have hover : ¬ 2 + recordsLoad p.pending + r.size < containerRoom :=
        fun hlt => hfit (Nat.le_of_lt hlt)
      simp [hover]

/-! ## The gates exclude one another -/

/-- With the shipped schedule at most one gate is open at a time. -/
theorem gate_exclusive (now : UInt64) (f : UInt32) (hf : f = 1 ∨ f = 2)
    (h0 : tasIsGateOpenFifox gclMirror now 0 = true) : tasIsGateOpenFifox gclMirror now f = false := by
  obtain ⟨-, j, hj, -, hbit⟩ := (tasIsGateOpenFifox_iff gclMirror gclMirror_ok now 0).1 h0
  rw [← Bool.not_eq_true, tasIsGateOpenFifox_iff gclMirror gclMirror_ok]
  rintro ⟨-, j', hj', -, hbit'⟩
  obtain rfl := Option.some.inj (hj.symm.trans hj')
  have hlt : j < 4 := ((TimeSlots.slotAt_eq_some_iff _ _ _).1 hj).1
  interval_cases j <;> rcases hf with rfl | rfl <;> revert hbit hbit' <;> decide

theorem gateUsed_tcToFifo (now : UInt64) (tc : UInt8) (h0 : tasIsGateOpenFifox gclMirror now 0 = true) :
    tasIsGateOpenFifox gclMirror now (tcToFifo tc).toUInt32 = true ↔ tc ≤ 2 := by
  unfold tcToFifo
  split
  · next hle => exact iff_of_true h0 hle
  · next hgt =>
    refine iff_of_false ?_ hgt
    split
    · rw [gate_exclusive now (UInt8.toUInt32 1) (Or.inl rfl) h0]; exact Bool.false_ne_true
    · rw [gate_exclusive now (UInt8.toUInt32 2) (Or.inr rfl) h0]; exact Bool.false_ne_true

/-! ## Runs with a clock -/

/-- The events of a clocked trace. -/
def events (tr : List (UInt64 × GwEvent)) : List GwEvent := tr.map Prod.snd

theorem gateUsed_of_quiet {e : UInt64 × GwEvent} (h : e.2.isSend = false) : GateUsed e := by
  intro c he
  rw [he] at h
  cases h

theorem gateUsed_sendEvents_iff {s : GwState} {i : GwInput} {cause : SendCause} {now : UInt64}
    {past : List (UInt64 × GwEvent)} :
    AtEvery (fun _ e => GateUsed e) past ((sendEvents s i cause).map fun e => (now, e)) ↔
      (cause = .gate → tasIsGateOpenFifox gclMirror now (tcToFifo s.currentTC).toUInt32 = true) := by
  have hprovided : ∀ f l r, GateUsed (now, .provided f l r) := fun _ _ _ _ he => GwEvent.noConfusion he
  have hcopied : ∀ a n b, GateUsed (now, .copied a n b) := fun _ _ _ _ he => GwEvent.noConfusion he
  have hsent : ∀ b n ok, GateUsed (now, .transmitted b n ok) := fun _ _ _ _ he => GwEvent.noConfusion he
  have hclosed : ∀ c, GateUsed (now, .closed c) ↔
      (c.cause = .gate → tasIsGateOpenFifox gclMirror now c.fifoIdx.toUInt32 = true) := by
    intro c
    constructor
    · exact fun h => h c rfl
    · rintro h _ ⟨rfl⟩
      exact h
  unfold sendEvents bufferEvents
  cases i.provide with
  | refused _ _ => simp [AtEvery, hprovided, hclosed, GwState.closedContainer]
  | granted bufIdx ethPayload lenByte =>
    simp [AtEvery, hprovided, hcopied, hsent, hclosed, GwState.closedContainer]

theorem urgentEnough_iff {map : List CanIdToPduId} {s s₁ : GwState} {now : UInt64} {i : GwInput}
    {p : Packer RoutedPdu} {cause : SendCause} (h : Sim map s p)
    (hroom : 2 + recordsLoad p.pending < containerRoom)
    (hsend : Sending map s (i.atClock now) p s₁ cause) (ho : Offers map s (i.atClock now)) :
    UrgentEnough map s (now, i) ↔
      (cause = .gate → tasIsGateOpenFifox gclMirror now (tcToFifo s₁.currentTC).toUInt32 = true) := by
  have hcause := cause_gate_iff h hroom hsend
  have htc : cause = .gate → s₁.currentTC = urgentTC map s i := fun hg =>
    (hsend.sim.tc hsend.ne_nil).unique (isMinTC_urgentTC h
      (fun r hr => Nat.le_of_lt ((hcause.1 hg).2 r hr)) hsend.ne_nil)
  constructor
  · intro hc hg
    obtain ⟨h0, hfit⟩ := hcause.1 hg
    rw [gateUsed_tcToFifo now _ h0, htc hg]
    exact hc ho h0 hfit
  · intro hused _ h0 hfit
    have hg := hcause.2 ⟨h0, hfit⟩
    have := hused hg
    rwa [gateUsed_tcToFifo now _ h0, htc hg] at this

/-- A round of the gateway is a step of the clocked one. -/
theorem clockedGateway_step {map : List CanIdToPduId} {s s₁ : GwState} {i : UInt64 × GwInput}
    {es : List GwEvent} (hs : ethPduSendTas map s (i.2.atClock i.1) = some (s₁, es)) :
    (clockedGateway map).step s i = some (s₁, es.map fun e => (i.1, e)) := by
  simp only [clockedGateway, hs, Option.map_some]

theorem clocked_step {map : List CanIdToPduId} {s s₁ : GwState} {tr es : List (UInt64 × GwEvent)}
    {i : UInt64 × GwInput} {p : Packer RoutedPdu} (h : History map (events tr) s p)
    (hs : (clockedGateway map).step s i = some (s₁, es)) :
    History map (events (tr ++ es)) s₁ (packRound map s (i.2.atClock i.1) p) ∧
      (UrgentEnough map s i ↔ AtEvery (fun _ e => GateUsed e) tr es) := by
  obtain ⟨⟨s', es'⟩, hs', heq⟩ := Option.map_eq_some_iff.1 hs
  obtain ⟨rfl, rfl⟩ := Prod.mk.inj heq
  constructor
  · have h' := history_step h hs'
    unfold events at h' ⊢
    rwa [List.map_append, List.map_map, show (Prod.snd ∘ fun e : GwEvent => (i.1, e)) = id from rfl,
      List.map_id]
  · have hquiet : ∀ {es : List GwEvent}, (∀ e ∈ es, e.isSend = false) →
        AtEvery (fun _ e => GateUsed e) tr (es.map fun e => (i.1, e)) := by
      intro es hq
      refine atEvery_of_forall_mem fun _ e he => ?_
      obtain ⟨e', he', rfl⟩ := List.mem_map.1 he
      exact gateUsed_of_quiet (hq e' he')
    rcases round_offers h hs' with ⟨ho, hq⟩ | ⟨ho, s₂, e₁, cause, hsend, hq, -, rfl⟩
    · exact iff_of_true (fun h => absurd h ho) (hquiet hq)
    · rw [List.map_append, atEvery_append, and_iff_right (hquiet hq), gateUsed_sendEvents_iff]
      exact urgentEnough_iff h.sim h.wf.room hsend ho

/-- **The tested gate is the used gate** exactly in the runs in which every container that
goes because of the gate has a class of at most 2. -/
theorem gateUsed_iff (map : List CanIdToPduId) (u : UninitLocals) (is : List (UInt64 × GwInput))
    (s : GwState) (tr : List (UInt64 × GwEvent))
    (hrun : (clockedGateway map).run (GwState.start u) is = some (s, tr)) :
    (∀ e ∈ tr, GateUsed e) ↔
      (clockedGateway map).AllSteps (UrgentEnough map) (GwState.start u) is := by
  have h₀ : ∃ p, History map (events []) (GwState.start u) p := ⟨empty, history_start map u⟩
  have hiff := (clockedGateway map).allSteps_iff_atEvery (fun s tr => ∃ p, History map (events tr) s p)
    (fun _ _ _ _ _ ⟨p, h⟩ hs => ⟨⟨_, (clocked_step h hs).1⟩, (clocked_step h hs).2⟩) h₀ hrun
  rw [hiff]
  exact ⟨fun h => atEvery_of_forall_mem fun _ e he => h e he,
    fun h e he => h.mem (Q := fun _ e => GateUsed e) he⟩

/-- One message at the start of the cycle. -/
def roundAtStart : UInt64 × GwInput := (0, .granting (some (.blank 1 0)) false 0)

/-- With the shipped table it is of class 0. -/
theorem gateUsed_critical :
    ∃ s tr, (clockedGateway canPduMap).run (GwState.start .zero) [roundAtStart] = some (s, tr) ∧
      ∀ e ∈ tr, GateUsed e := by
  obtain ⟨s, es, hs⟩ := ethPduSendTas_total shippedTable (GwState.start .zero)
    (roundAtStart.2.atClock roundAtStart.1)
  have hrun := (clockedGateway canPduMap).run_singleton (clockedGateway_step hs)
  refine ⟨s, _, hrun, (gateUsed_iff canPduMap .zero _ s _ hrun).2 ⟨fun _ _ _ => ?_, fun _ _ _ => trivial⟩⟩
  decide

/-- One row of class 3. -/
def lowTable : RoutingTable := ⟨[⟨0x1, 1001, 3⟩], by decide, by decide⟩

/-- One message of class 3 at the start of the cycle: the gate of FIFO 0 is open, the one
of FIFO 1 is not. -/
theorem gate_tested_not_used :
    ¬ ∀ (map : List CanIdToPduId) (u : UninitLocals) (is : List (UInt64 × GwInput)) (s : GwState)
      (tr : List (UInt64 × GwEvent)), (clockedGateway map).run (GwState.start u) is = some (s, tr) →
      ∀ e ∈ tr, GateUsed e := by
  intro hall
  obtain ⟨s, es, hs⟩ := ethPduSendTas_total lowTable (GwState.start .zero)
    (roundAtStart.2.atClock roundAtStart.1)
  have hstep := clockedGateway_step hs
  have hused := hall lowTable.rows .zero [roundAtStart] s _ ((clockedGateway lowTable.rows).run_singleton hstep)
  have hurgent := (clocked_step (show History _ (events []) _ _ from history_start lowTable.rows .zero) hstep).2.2
    (atEvery_of_forall_mem fun _ e he => hused e he)
  have hrouted : routed lowTable.rows (GwState.start .zero) roundAtStart.2 = some ⟨.blank 1 0, 1001, 3⟩ := rfl
  have hoffers : Offers lowTable.rows (GwState.start .zero) (roundAtStart.2.atClock roundAtStart.1) :=
    ⟨by decide, Or.inr rfl, Or.inl (by decide)⟩
  have hle := hurgent hoffers (by decide) (fun r hr => by
    rw [hrouted] at hr
    rw [← Option.some.inj hr]
    decide)
  exact absurd hle (by decide)

end CanTsn
