import CanTsnGateway.Gateway.Conservation

/-!
# A container that fills up behind a closed gate

While the gate is closed and the routed messages fit, the container only grows; the
round after that with an open gate copies it, whole, into the granted buffer.

    Forall₂ Fills is rs → room → the run over `is` holds exactly `rs`         (run_filling)
    … then one open round hands out `containerBytes (rs ++ [r])`             (run_filled_sent)
-/

namespace CanTsn

open Packer StepMachine

/-- A round in which a routed message arrives while the gate is closed. -/
structure Fills (map : List CanIdToPduId) (i : GwInput) (r : RoutedPdu) : Prop where
  queue : i.queue = some r.msg
  route : route map r.msg = some r
  gate : i.gateOpen = false

theorem hasOverflowPdu_eq_false {map : List CanIdToPduId} {tr : List GwEvent} {s : GwState}
    {p : Packer RoutedPdu} (h : History map tr s p) (hc : p.carry = none) :
    s.hasOverflowPdu = false := by
  rw [← h.sim.carry_isSome, hc]
  rfl

theorem routed_of_queue {map : List CanIdToPduId} {s : GwState} {i : GwInput} {r : RoutedPdu}
    (hov : s.hasOverflowPdu = false) (hq : i.queue = some r.msg) (hr : route map r.msg = some r) :
    routed map s i = some r :=
  (routed_of_taken map ((taken_of_no_overflow hov i).trans hq)).trans hr

/-- A fitting record goes behind the others. -/
theorem take_fits {rs : List RoutedPdu} {r : RoutedPdu}
    (hfit : 2 + recordsLoad rs + r.size ≤ containerRoom) :
    take RoutedPdu.size 2 containerRoom ⟨[], rs, none⟩ (some r) = ⟨[], rs ++ [r], none⟩ := by
  unfold take put
  exact if_pos hfit

theorem history_filling {T : RoutingTable} {tr₀ : List GwEvent} {s : GwState} {is : List GwInput}
    {rs₀ rs : List RoutedPdu} (h : History T.rows tr₀ s ⟨[], rs₀, none⟩)
    (hfill : List.Forall₂ (Fills T.rows) is rs) (hroom : 2 + recordsLoad (rs₀ ++ rs) < containerRoom) :
    ∃ s' tr, (gateway T.rows).run s is = some (s', tr) ∧ (∀ e ∈ tr, e.isSend = false) ∧
      History T.rows (tr₀ ++ tr) s' ⟨[], rs₀ ++ rs, none⟩ := by
  induction hfill generalizing s tr₀ rs₀ with
  | nil =>
    refine ⟨s, [], rfl, by simp, ?_⟩
    rwa [List.append_nil, List.append_nil]
  | @cons i r is rs hi _ ih =>
    obtain ⟨s₁, es, hs⟩ := ethPduSendTas_total T s i
    have hrouted := routed_of_queue (hasOverflowPdu_eq_false h rfl) hi.queue hi.route
    have hload : recordsLoad (rs₀ ++ r :: rs) = recordsLoad (rs₀ ++ [r]) + recordsLoad rs := by
      rw [List.append_cons, recordsLoad, load_append]
    have hsnoc := recordsLoad_snoc rs₀ r
    have hopen : closes RoutedPdu.size 2 containerRoom ⟨[], rs₀ ++ [r], none⟩ i.gateOpen = false := by
      have hlt : ¬ containerRoom ≤ 2 + recordsLoad (rs₀ ++ [r]) := by omega
      simp [closes, hi.gate, hlt]
    have hskips := not_skips_of_routed hrouted
    have hround : packRound T.rows s i ⟨[], rs₀, none⟩ = ⟨[], rs₀ ++ [r], none⟩ := by
      rw [packRound, if_neg hskips, hrouted, step, take_fits (by omega), close, hopen,
        if_neg Bool.false_ne_true]
    have hquiet : ∀ e ∈ es, e.isSend = false := by
      rcases round_cases h hs with ⟨hsk, -⟩ | ⟨-, s₂, e₁, hl, -, rfl⟩
      · exact absurd hsk hskips
      · have hnone := shouldTransmit_isSome hl.sim i.gateOpen
        rw [hrouted, take_fits (by omega), hopen] at hnone
        rcases sendPhase_events s₂ i with ⟨-, hnil⟩ | ⟨cause, hst, -⟩
        · rw [hnil, List.append_nil]; exact hl.quiet
        · rw [hst] at hnone; cases hnone
    have h₁ := history_step h hs
    rw [hround] at h₁
    obtain ⟨s', tr, hrun, htr, h'⟩ := ih h₁ (by rwa [List.append_assoc])
    refine ⟨s', es ++ tr, ((gateway T.rows).run_cons_eq_some _ _ _ _ _).2 ⟨s₁, es, tr, hs, hrun, rfl⟩,
      fun e he => ?_, ?_⟩
    · rcases List.mem_append.1 he with he | he
      · exact hquiet e he
      · exact htr e he
    · rwa [← List.append_assoc, List.append_cons]

/-! ## Copies of one message -/

/-- A message of identifier 1 with `len` zero bytes, routed by the shipped table. -/
def blankPdu (len : UInt8) : RoutedPdu := ⟨.blank 1 len, 1001, tcCritical⟩

theorem route_blankPdu (len : UInt8) : route canPduMap (blankPdu len).msg = some (blankPdu len) := rfl

/-- A round that receives the message, with the gate closed or open. -/
def blankRound (len : UInt8) (gateOpen : Bool) (ethPayload : UInt32) : GwInput :=
  .granting (some (.blank 1 len)) gateOpen ethPayload

theorem fills_replicate (len : UInt8) (ethPayload : UInt32) (n : Nat) :
    List.Forall₂ (Fills canPduMap) (List.replicate n (blankRound len false ethPayload))
      (List.replicate n (blankPdu len)) := by
  induction n with
  | zero => exact .nil
  | succ n ih => exact .cons ⟨rfl, route_blankPdu len, rfl⟩ ih

theorem recordsLoad_replicate (len : UInt8) (n : Nat) :
    recordsLoad (List.replicate n (blankPdu len)) = n * (3 + len.toNat) := by
  induction n with
  | zero => rw [Nat.zero_mul]; rfl
  | succ n ih =>
    rw [List.replicate_succ', recordsLoad_snoc, ih, Nat.succ_mul]
    rfl

theorem shortInput_blankRound {len : UInt8} (h : len ≤ 64) (gateOpen : Bool) (ethPayload : UInt32) :
    ShortInput (blankRound len gateOpen ethPayload) := by
  intro m hm
  rw [← Option.some.inj hm]
  exact h

theorem shortInput_blankRounds {len len' : UInt8} (h : len ≤ 64) (h' : len' ≤ 64) (n : Nat)
    (ethPayload : UInt32) : ∀ i ∈ List.replicate n (blankRound len false ethPayload) ++
      [blankRound len' true ethPayload], ShortInput i := by
  intro i hi
  rcases List.mem_append.1 hi with hi | hi
  · rw [List.eq_of_mem_replicate hi]
    exact shortInput_blankRound h false ethPayload
  · rw [List.mem_singleton.1 hi]
    exact shortInput_blankRound h' true ethPayload

theorem short_blankPdus {len len' : UInt8} (h : len ≤ 64) (h' : len' ≤ 64) (n : Nat) :
    Short (List.replicate n (blankPdu len) ++ [blankPdu len']) := by
  intro r hr
  rcases List.mem_append.1 hr with hr | hr
  · rw [List.eq_of_mem_replicate hr]; exact h
  · rw [List.mem_singleton.1 hr]; exact h'

/-! ## Two containers -/

/-- Rows of three classes. -/
def mixedTable : RoutingTable := ⟨[⟨0x1, 1001, 3⟩, ⟨0x2, 1002, 0⟩, ⟨0x3, 1003, 7⟩], by decide, by decide⟩

/-- Three records of different classes and lengths, the last one with the gate open, and a
container with two records behind them.  The buffers are the first ones of rings 0 and 1. -/
def mixedRounds : List GwInput :=
  [.granting (some (.blank 1 2)) false 0, .granting (some (.blank 2 8)) false 0,
    .granting (some (.blank 3 64)) true 0x3400000E, .granting (some (.blank 3 5)) false 0,
    { GwInput.granting (some (.blank 1 0)) true 0 with provide := .granted 32 0x3400C00E 1522 }]

/-- Eleven messages of 64 bytes and 244 empty ones behind a closed gate, then one more of 64
bytes: it overflows, and the container goes with 255 records. -/
def countingRounds : List GwInput :=
  List.replicate 11 (blankRound 64 false 0) ++ List.replicate 244 (blankRound 0 false 0) ++
    [blankRound 64 false 0]

theorem shortInput_countingRounds : ∀ i ∈ countingRounds, ShortInput i := by
  intro i hi
  simp only [countingRounds, List.mem_append, List.mem_replicate, List.mem_singleton] at hi
  rcases hi with (⟨-, rfl⟩ | ⟨-, rfl⟩) | rfl <;> exact shortInput_blankRound (by decide) false 0

/-! ## Runs -/

/-- **Filling.**  Behind a closed gate the records pile up in one container. -/
theorem run_filling (T : RoutingTable) (u : UninitLocals) {is : List GwInput} {rs : List RoutedPdu}
    (hfill : List.Forall₂ (Fills T.rows) is rs) (hroom : 2 + recordsLoad rs < containerRoom) :
    ∃ s tr, (gateway T.rows).run (GwState.start u) is = some (s, tr) ∧
      (∀ e ∈ tr, e.isSend = false) ∧ History T.rows tr s ⟨[], rs, none⟩ :=
  history_filling (history_start T.rows u) hfill hroom

/-- **Filling, then sending.** -/
theorem run_filled_sent (T : RoutingTable) (u : UninitLocals) {is : List GwInput}
    {rs : List RoutedPdu} {i : GwInput} {r : RoutedPdu} {bufIdx ethPayload : UInt32} {lenByte : UInt16}
    (hfill : List.Forall₂ (Fills T.rows) is rs) (hroom : 2 + recordsLoad rs < containerRoom)
    (hfit : 2 + recordsLoad rs + r.size ≤ containerRoom) (hshort : Short (rs ++ [r]))
    (hq : i.queue = some r.msg) (hr : route T.rows r.msg = some r) (hgate : i.gateOpen = true)
    (hprov : i.provide = .granted bufIdx ethPayload lenByte) :
    ∃ s pre containerLen currentTC c,
      (gateway T.rows).run (GwState.start u) (is ++ [i]) =
        some (s, pre ++ [.provided (tcToFifo currentTC) txBufferRequest (.granted bufIdx ethPayload lenByte),
          .copied ethPayload lenByte (containerBytes (rs ++ [r])),
          .transmitted bufIdx containerLen i.transmitOk, .closed c]) ∧
      (∀ e ∈ pre, e.isSend = false) ∧ containerLen.toNat = 2 + recordsLoad (rs ++ [r]) ∧
      IsMinTC currentTC (rs ++ [r]) := by
  obtain ⟨s, tr, hrun, hquiet, h⟩ := run_filling T u hfill hroom
  obtain ⟨s', es, hs⟩ := ethPduSendTas_total T s i
  have hrouted := routed_of_queue (hasOverflowPdu_eq_false h rfl) hq hr
  have hne : rs ++ [r] ≠ [] := List.append_ne_nil_of_right_ne_nil _ (List.cons_ne_nil r [])
  rcases round_cases h hs with ⟨hsk, -⟩ | ⟨-, s₁, e₁, hl, -, rfl⟩
  · exact absurd hsk (not_skips_of_routed hrouted)
  · have hsim := hl.sim
    rw [hrouted, take_fits hfit] at hsim
    have hlen := hsim.len
    rw [if_neg hne] at hlen
    have hbytes := hsim.bytes hne hshort
    have hsome := shouldTransmit_isSome hsim i.gateOpen
    have hcloses : closes RoutedPdu.size 2 containerRoom ⟨[], rs ++ [r], none⟩ i.gateOpen = true := by
      simp [closes, hgate]
    rw [hcloses] at hsome
    rcases sendPhase_events s₁ i with ⟨hnone, -⟩ | ⟨cause, -, hev⟩
    · rw [hnone] at hsome; cases hsome
    · rw [sendEvents, bufferEvents, hprov, hbytes] at hev
      have hall := (gateway T.rows).run_append hrun ((gateway T.rows).run_singleton hs)
      rw [hev, ← List.append_assoc] at hall
      refine ⟨s', tr ++ e₁, s₁.containerLen, s₁.currentTC, _, hall, fun e he => ?_, hlen, hsim.tc hne⟩
      rcases List.mem_append.1 he with he | he
      · exact hquiet e he
      · exact hl.quiet e he

/-- `n` messages of `len` bytes behind the gate, one of `len'` bytes with the gate open. -/
theorem run_blank_sent (len len' : UInt8) (h : len ≤ 64) (h' : len' ≤ 64) (n : Nat) (ethPayload : UInt32)
    (hroom : 2 + n * (3 + len.toNat) < containerRoom)
    (hfit : 2 + n * (3 + len.toNat) + (3 + len'.toNat) ≤ containerRoom) :
    ∃ s pre containerLen c, (gateway canPduMap).run (GwState.start .zero)
        (List.replicate n (blankRound len false ethPayload) ++ [blankRound len' true ethPayload]) =
          some (s, pre ++ [.provided 0 txBufferRequest (.granted 0 ethPayload 1522),
            .copied ethPayload 1522 (containerBytes (List.replicate n (blankPdu len) ++ [blankPdu len'])),
            .transmitted 0 containerLen true, .closed c]) ∧
      (∀ e ∈ pre, e.isSend = false) ∧
      containerLen.toNat = 2 + n * (3 + len.toNat) + (3 + len'.toNat) := by
  have hload := recordsLoad_replicate len n
  obtain ⟨s, pre, containerLen, tc, c, hrun, hquiet, hlen, htc⟩ := run_filled_sent shippedTable .zero
    (i := blankRound len' true ethPayload) (r := blankPdu len') (fills_replicate len ethPayload n)
    (by rwa [hload]) (by rw [hload]; exact hfit) (short_blankPdus h h' n) rfl (route_blankPdu len') rfl rfl
  have htc0 : tc = tcCritical := by
    obtain ⟨r, hr, rfl⟩ := htc.1
    rcases List.mem_append.1 hr with hr | hr
    · rw [List.eq_of_mem_replicate hr]; rfl
    · rw [List.mem_singleton.1 hr]; rfl
  rw [htc0] at hrun
  refine ⟨s, pre, containerLen, c, hrun, hquiet, ?_⟩
  rw [hlen, recordsLoad_snoc, hload, ← Nat.add_assoc]
  rfl

/-- One message of two bytes with the gate open: a container of seven bytes. -/
theorem run_blank_one (ethPayload : UInt32) :
    ∃ s pre c, (gateway canPduMap).run (GwState.start .zero) [blankRound 2 true ethPayload] =
        some (s, pre ++ [.provided 0 txBufferRequest (.granted 0 ethPayload 1522),
          .copied ethPayload 1522 (containerBytes [blankPdu 2]), .transmitted 0 7 true, .closed c]) ∧
      ∀ e ∈ pre, e.isSend = false := by
  obtain ⟨s, pre, containerLen, c, hrun, hquiet, hlen⟩ :=
    run_blank_sent 2 2 (by decide) (by decide) 0 ethPayload (by decide) (by decide)
  obtain rfl : containerLen = 7 := UInt16.toNat_inj.1 hlen
  exact ⟨s, pre, c, hrun, hquiet⟩

theorem shortInput_blank_one (ethPayload : UInt32) :
    ∀ i ∈ [blankRound 2 true ethPayload], ShortInput i :=
  List.forall_mem_singleton.2 (shortInput_blankRound (by decide) true ethPayload)

end CanTsn
