import CanTsnGateway.Gateway.Filling
import CanTsnGateway.Model.EthDriver

/-!
# Bounds on the container

On short messages the container never takes more than 1518 bytes, every write and read
stays in its array, and no empty container is sent; with the driver's answers the copy
stays in the granted buffer (`gateway_bounds`).

The payload handed to the driver is at most 1500 bytes while no record takes the
container past them (`ethPayload_le`); the code's own limit is the room of the ring
buffer, and 1503 bytes do get through (`ethPayload_exceeds`).
-/

namespace CanTsn

open ByteBlock Packer StepMachine

/-! ## Reads, writes and sums -/

/-- Bounds of the events of sections 1 and 2. -/
def InBounds : GwEvent → Prop
  | .wrote off n => off + n ≤ containerMaxSize
  | .readData n => n ≤ 64
  | .fitTest containerLen iPduLen requiredSpace =>
    requiredSpace.toNat = 3 + iPduLen.toNat ∧ containerLen.toNat + requiredSpace.toNat ≤ 65535
  | _ => True

theorem inBounds_startContainer (s : GwState) (msgTC : UInt8) :
    ∀ e ∈ (startContainer s msgTC).2, InBounds e := by
  intro e he
  unfold startContainer at he
  split at he
  · cases he
  · simp only [List.mem_cons, List.not_mem_nil, or_false] at he
    rcases he with rfl | rfl
    · exact (by decide : 0 + 1 ≤ containerMaxSize)
    · exact (by decide : 1 + 1 ≤ containerMaxSize)

theorem inBounds_addPdu {s : GwState} (i : GwInput) {r : RoutedPdu}
    (hlen : s.containerLen.toNat ≤ containerRoom) (hr : r.msg.dataLen ≤ 64) :
    ∀ e ∈ (addPdu s i r).2, InBounds e := by
  have hreq := toNat_requiredSpace r
  have h64 : r.msg.dataLen.toNat ≤ 64 := hr
  have h1518 : containerRoom = 1518 := rfl
  have hmax : containerMaxSize = 1536 := rfl
  have hfit : InBounds (.fitTest s.containerLen r.msg.dataLen
      (gwIPduHdrSize + r.msg.dataLen.toUInt16)) := by
    refine ⟨hreq, ?_⟩
    rw [hreq]
    unfold RoutedPdu.size
    omega
  intro e he
  unfold addPdu at he
  simp only [hreq] at he
  split at he
  · next hle =>
    unfold RoutedPdu.size at hle
    simp only [List.mem_cons, List.not_mem_nil, or_false] at he
    rcases he with rfl | rfl | rfl | rfl | rfl | rfl | rfl | rfl
    · exact hfit
    · show s.containerLen.toNat + 1 ≤ containerMaxSize; omega
    · show s.containerLen.toNat + 1 + 1 ≤ containerMaxSize; omega
    · show s.containerLen.toNat + 2 + 1 ≤ containerMaxSize; omega
    · exact h64
    · show s.containerLen.toNat + 3 + r.msg.dataLen.toNat ≤ containerMaxSize; omega
    · exact (by decide : 1 + 1 ≤ containerMaxSize)
    · trivial
  · simp only [List.mem_cons, List.not_mem_nil, or_false] at he
    rcases he with rfl | rfl
    · exact hfit
    · trivial

theorem inBounds_of_isSend {e : GwEvent} (h : e.isSend = true) : InBounds e := by
  cases e <;> trivial

theorem isSend_sendPhase (s : GwState) (i : GwInput) : ∀ e ∈ (sendPhase s i).2, e.isSend = true := by
  intro e he
  rcases sendPhase_events s i with ⟨-, hnil⟩ | ⟨cause, -, hev⟩
  · rw [hnil] at he; cases he
  · rw [hev, sendEvents, bufferEvents] at he
    cases hp : i.provide with
    | granted bufIdx ethPayload lenByte =>
      rw [hp] at he
      simp only [List.cons_append, List.nil_append, List.mem_cons, List.not_mem_nil, or_false] at he
      rcases he with rfl | rfl | rfl | rfl <;> rfl
    | refused code lenByte =>
      rw [hp] at he
      simp only [List.nil_append, List.mem_cons, List.not_mem_nil, or_false] at he
      rcases he with rfl | rfl <;> rfl

/-- The routed message of a round is among what the packer has taken in. -/
theorem routed_mem_contents {map : List CanIdToPduId} {s : GwState} {i : GwInput}
    {p : Packer RoutedPdu} {r : RoutedPdu} (h : Sim map s p) (hr : routed map s i = some r) :
    r ∈ contents (packRound map s i p) := by
  rw [packRound, if_neg (not_skips_of_routed hr), step, contents_close, take_routed i h, hr]
  show r ∈ contents (put RoutedPdu.size 2 containerRoom { p with carry := none } r)
  rw [contents_put _ _ _ _ _ rfl]
  exact List.mem_append_right _ (List.mem_singleton_self r)

theorem inBounds_round {map : List CanIdToPduId} {tr es : List GwEvent} {s s' : GwState} {i : GwInput}
    {p : Packer RoutedPdu} (h : History map tr s p) (hp' : Short (contents (packRound map s i p)))
    (hs : ethPduSendTas map s i = some (s', es)) : ∀ e ∈ es, InBounds e := by
  have hrecv : ∀ e ∈ receiveEvents s i, InBounds e := by
    intro e he
    rw [receiveEvents_eq] at he
    obtain ⟨m, -, rfl⟩ := List.mem_map.1 he
    trivial
  intro e he
  rcases ethPduSendTas_cases hs with ⟨-, -, rfl⟩ | ⟨m, -, -, -, rfl⟩ |
    ⟨m, r, s₂, s₃, hm, hr, rfl, rfl, -, rfl⟩
  · rcases List.mem_append.1 he with he | he
    · exact hrecv e he
    · exact inBounds_of_isSend (isSend_sendPhase _ i e he)
  · rcases List.mem_append.1 he with he | he
    · exact hrecv e he
    · rw [List.mem_singleton.1 he]; trivial
  · have hrouted : routed map s i = some r := (routed_of_taken map hm).trans hr
    have hlen := (opened_startContainer h.sim r.msgTC).len
    have hroom := h.wf.room
    rcases List.mem_append.1 he with he | he
    · rcases List.mem_append.1 he with he | he
      · rcases List.mem_append.1 he with he | he
        · exact hrecv e he
        · exact inBounds_startContainer _ _ e he
      · exact inBounds_addPdu i (by rw [hlen]; exact Nat.le_of_lt hroom)
          (hp' r (routed_mem_contents h.sim hrouted)) e he
    · exact inBounds_of_isSend (isSend_sendPhase _ i e he)

theorem run_inBounds {map : List CanIdToPduId} {u : UninitLocals} {is : List GwInput} {s : GwState}
    {tr : List GwEvent} (hshort : ∀ i ∈ is, ShortInput i)
    (hrun : (gateway map).run (GwState.start u) is = some (s, tr)) : ∀ e ∈ tr, InBounds e := by
  refine (shortRun_rule (fun _ _ => True) (fun _ _ tr => ∀ e ∈ tr, InBounds e)
    (fun _ he => by cases he) ?_ hshort ((gateway map).allSteps_of_forall _ is fun _ _ => trivial)
    hrun).elim fun _ h => h.2.2
  intro tr es s s' i p h hp' _ hin hs e he
  rcases List.mem_append.1 he with he | he
  · exact hin e he
  · exact inBounds_round h hp' hs e he

/-! ## What reaches the driver -/

/-- A transmit request follows the grant and the copy of its buffer. -/
def CopiedThenSent (past : List GwEvent) : GwEvent → Prop
  | .transmitted bufIdx lenByte _ =>
    (∃ before fifoIdx ethPayload bufLen bytes,
      past = before ++ [.provided fifoIdx txBufferRequest (.granted bufIdx ethPayload bufLen),
        .copied ethPayload bufLen bytes] ∧ bytes.length = lenByte.toNat) ∧
    5 ≤ lenByte.toNat ∧ lenByte.toNat ≤ 1518
  | _ => True

theorem run_copiedThenSent {map : List CanIdToPduId} {u : UninitLocals} {is : List GwInput}
    {s : GwState} {tr : List GwEvent} (hshort : ∀ i ∈ is, ShortInput i)
    (hrun : (gateway map).run (GwState.start u) is = some (s, tr)) : AtEvery CopiedThenSent [] tr := by
  refine sends_rule (fun _ _ => True) (fun _ => True) CopiedThenSent trivial (fun _ _ _ => trivial) ?_ ?_
    hshort ((gateway map).allSteps_of_forall _ is fun _ _ => trivial) hrun
  · intro past e hq
    cases e <;> trivial
  · intro past s s₁ i p cause hsend _ _ _ _ _
    have hlen := hsend.sim.len
    rw [if_neg hsend.ne_nil] at hlen
    have h3 := three_le_recordsLoad hsend.ne_nil
    have hle : 2 + recordsLoad _ ≤ 1518 := hsend.le
    rw [atEvery_sendEvents_iff (fun _ _ _ _ => trivial) fun _ _ => trivial]
    intro bufIdx ethPayload lenByte _
    refine ⟨trivial, ⟨past, _, ethPayload, lenByte, _, List.append_assoc _ _ _, ?_⟩, by omega, by omega⟩
    exact Block.length_upto _ _ (by rw [hlen]; exact Nat.le_trans hsend.le (by decide))

/-- The granted buffer has room for the frame: the copied bytes are the frame's, there
are some, and with the Ethernet header they fit the ring buffer. -/
def FitsBuffer (past : List GwEvent) : GwEvent → Prop
  | .transmitted bufIdx lenByte _ =>
    ∃ before fifoIdx ethPayload bufLen bytes,
      past = before ++ [.provided fifoIdx txBufferRequest (.granted bufIdx ethPayload bufLen),
        .copied ethPayload bufLen bytes] ∧
      bytes.length = lenByte.toNat ∧ 5 ≤ lenByte.toNat ∧ lenByte.toNat ≤ bufLen.toNat ∧
      ethFrameHeaderLength.toNat + bufLen.toNat ≤ txBufferLen.toNat
  | _ => True

theorem fitsBuffer_of_ethRun {tr : List GwEvent} {buffer : UInt8 → UInt32} {d : EthTx}
    (h : AtEvery CopiedThenSent [] tr) (hd : EthRun (EthTx.init buffer) tr d) :
    AtEvery FitsBuffer [] tr := by
  have hgranted := ethRun_granted hd (lengthOk_init buffer)
  rw [atEvery_iff] at h ⊢
  intro pre e post htr
  have he := h pre e post htr
  cases e with
  | transmitted bufIdx lenByte ok =>
    obtain ⟨⟨before, fifoIdx, ethPayload, bufLen, bytes, hpast, hbytes⟩, h5, h1518⟩ := he
    have h1522 : bufLen = 1522 := hgranted fifoIdx txBufferRequest bufIdx ethPayload bufLen (by
      rw [htr, show pre = _ from hpast]
      simp)
    subst h1522
    exact ⟨before, fifoIdx, ethPayload, _, bytes, hpast, hbytes, h5, Nat.le_trans h1518 (by decide), by decide⟩
  | _ => trivial

theorem ethRun_quiet {d d' : EthTx} {pre tr : List GwEvent} (hq : ∀ e ∈ pre, e.isSend = false)
    (h : EthRun d tr d') : EthRun d (pre ++ tr) d' := by
  induction pre with
  | nil => exact h
  | cons e pre ih =>
    have he := hq e List.mem_cons_self
    refine .other (fun _ _ _ hx => ?_) (fun _ _ _ hx => ?_)
      (ih fun e' he' => hq e' (List.mem_cons_of_mem e he'))
    · rw [hx] at he; cases he
    · rw [hx] at he; cases he

/-- The driver's part of one send. -/
theorem ethRun_send (d : EthTx) (fifoIdx : UInt8) (bufIdx ethPayload : UInt32) (lenByte containerLen : UInt16)
    (bytes : List UInt8) (ok : Bool) (c : ClosedContainer)
    (hprovide : (ethProvideTxBuffer d fifoIdx txBufferRequest).1 = .granted bufIdx ethPayload lenByte)
    (htransmit : (ethTransmit (ethProvideTxBuffer d fifoIdx txBufferRequest).2 bufIdx containerLen).1 = ok) :
    ∃ d', EthRun d [.provided fifoIdx txBufferRequest (.granted bufIdx ethPayload lenByte),
      .copied ethPayload lenByte bytes, .transmitted bufIdx containerLen ok, .closed c] d' := by
  refine ⟨(ethTransmit (ethProvideTxBuffer d fifoIdx txBufferRequest).2 bufIdx containerLen).2,
    .provided (Prod.ext hprovide rfl) (.other ?_ ?_ (.transmitted (Prod.ext htransmit rfl)
      (.other ?_ ?_ (.nil _))))⟩
  all_goals exact fun _ _ _ he => GwEvent.noConfusion he

/-- The driver, left to itself, gives the answers of the trace. -/
def ethReplay : EthTx → List GwEvent → Option EthTx
  | d, [] => some d
  | d, .provided priority lenByte res :: tr =>
    if (ethProvideTxBuffer d priority lenByte).1 = res then
      ethReplay (ethProvideTxBuffer d priority lenByte).2 tr
    else none
  | d, .transmitted bufIdx lenByte ok :: tr =>
    if (ethTransmit d bufIdx lenByte).1 = ok then ethReplay (ethTransmit d bufIdx lenByte).2 tr else none
  | d, _ :: tr => ethReplay d tr

theorem ethRun_of_replay {d d' : EthTx} {tr : List GwEvent} (h : ethReplay d tr = some d') : EthRun d tr d' := by
  fun_induction ethReplay d tr with
  | case1 =>
    cases h
    exact .nil d'
  | case2 _ _ _ _ ih => exact .provided (Prod.ext rfl rfl) (ih h)
  | case3 => cases h
  | case4 _ _ _ _ ih => exact .transmitted (Prod.ext rfl rfl) (ih h)
  | case5 => cases h
  | case6 d e tr hprovided htransmitted ih =>
    exact .other (fun _ _ _ he => hprovided _ _ _ he) (fun _ _ _ he => htransmitted _ _ _ he) (ih h)

/-- **Buffer and length bounds.** -/
theorem gateway_bounds (map : List CanIdToPduId) (u : UninitLocals) (is : List GwInput) (s : GwState)
    (tr : List GwEvent) (hshort : ∀ i ∈ is, ShortInput i)
    (hrun : (gateway map).run (GwState.start u) is = some (s, tr)) :
    s.containerLen.toNat ≤ 1518 ∧ (∀ e ∈ tr, InBounds e) ∧
    (∀ bufIdx lenByte ok, .transmitted bufIdx lenByte ok ∈ tr →
      5 ≤ lenByte.toNat ∧ lenByte.toNat ≤ 1518) ∧
    ∀ buffer d, EthRun (EthTx.init buffer) tr d → AtEvery FitsBuffer [] tr := by
  obtain ⟨p, h, -⟩ := history_run_short hshort hrun
  have hsent := run_copiedThenSent hshort hrun
  refine ⟨?_, run_inBounds hshort hrun, fun bufIdx lenByte ok hmem => ?_,
    fun buffer d hd => fitsBuffer_of_ethRun hsent hd⟩
  · have hlen := h.sim.len
    have hroom : 2 + recordsLoad p.pending < 1518 := h.wf.room
    split at hlen <;> omega
  · obtain ⟨pre, post, htr⟩ := List.append_of_mem hmem
    exact (hsent.at htr).2

/-- Rings 0 and 1 behind each other. -/
def mixedBuffers (fifoIdx : UInt8) : UInt32 := if fifoIdx = 0 then 0x34000000 else 0x3400C000

/-- Two containers, one on each ring. -/
theorem gateway_bounds_mixed :
    ∃ s tr d, (gateway mixedTable.rows).run (GwState.start .zero) mixedRounds = some (s, tr) ∧
      EthRun (EthTx.init mixedBuffers) tr d ∧ (closings tr).length = 2 ∧ s.containerLen.toNat ≤ 1518 ∧
      (∀ e ∈ tr, InBounds e) ∧ AtEvery FitsBuffer [] tr := by
  obtain ⟨s, tr, hrun⟩ := gateway_run_total mixedTable (GwState.start .zero) mixedRounds
  have hreplay : ((gateway mixedTable.rows).run (GwState.start .zero) mixedRounds).map
      (fun r => ((ethReplay (EthTx.init mixedBuffers) r.2).isSome, (closings r.2).length)) = some (true, 2) := by
    decide +kernel
  rw [hrun] at hreplay
  obtain ⟨hsome, hclosed⟩ := Prod.mk.inj (Option.some.inj hreplay)
  obtain ⟨d, hd⟩ := Option.isSome_iff_exists.1 hsome
  obtain ⟨hlen, hbounds, -, hfits⟩ :=
    gateway_bounds mixedTable.rows .zero mixedRounds s tr (by decide) hrun
  exact ⟨s, tr, d, hrun, ethRun_of_replay hd, hclosed, hlen, hbounds, hfits _ d (ethRun_of_replay hd)⟩

/-! ## The Ethernet payload limit -/

/-- The largest payload of an Ethernet frame. -/
def ethMaxPayload : Nat := 1500

/-- Header, VLAN tag, payload, checksum. -/
def wireLength (lenByte : UInt16) : Nat := 14 + 4 + lenByte.toNat + 4

/-- The round adds no record that takes the container past the payload limit. -/
def PayloadFits (map : List CanIdToPduId) (s : GwState) (i : GwInput) : Prop :=
  ∀ r, routed map s i = some r → heldLen s + r.size ≤ containerRoom →
    heldLen s + r.size ≤ ethMaxPayload

theorem payload_take_le {map : List CanIdToPduId} {s : GwState} {i : GwInput} {p : Packer RoutedPdu}
    (h : Sim map s p) (hle : 2 + recordsLoad p.pending ≤ ethMaxPayload) (hc : PayloadFits map s i) :
    2 + recordsLoad (take RoutedPdu.size 2 containerRoom p (routed map s i)).pending ≤ ethMaxPayload := by
  refine take_pending_of (Q := fun rs => 2 + recordsLoad rs ≤ ethMaxPayload) h hle fun r hr hfit => ?_
  have hpay := hc r hr
  rw [heldLen_eq h] at hpay
  rw [recordsLoad_snoc, ← Nat.add_assoc]
  exact hpay hfit

/-- **The payload limit** is kept in every run in which no record takes a container
past it. -/
theorem ethPayload_le (map : List CanIdToPduId) (u : UninitLocals) (is : List GwInput) (s : GwState)
    (tr : List GwEvent) (hshort : ∀ i ∈ is, ShortInput i)
    (hC : (gateway map).AllSteps (PayloadFits map) (GwState.start u) is)
    (hrun : (gateway map).run (GwState.start u) is = some (s, tr)) :
    ∀ bufIdx lenByte ok, .transmitted bufIdx lenByte ok ∈ tr →
      lenByte.toNat ≤ ethMaxPayload ∧ wireLength lenByte ≤ 1522 := by
  have hall : AtEvery (fun _ e => ∀ bufIdx lenByte ok, e = .transmitted bufIdx lenByte ok →
      lenByte.toNat ≤ ethMaxPayload) [] tr := by
    refine sends_rule (PayloadFits map) (fun p => 2 + recordsLoad p.pending ≤ ethMaxPayload) _
      (by decide) ?_ ?_ ?_ hshort hC hrun
    · intro tr s i p h hc hj
      exact packRound_pending_of (Q := fun rs => 2 + recordsLoad rs ≤ ethMaxPayload) (by decide) hj
        (payload_take_le h.sim hj hc)
    · rintro past e hq bufIdx lenByte ok rfl
      cases hq
    · intro past s s₁ i p cause hsend _ hc hj ⟨tr, h⟩ _
      have hlen := hsend.sim.len
      rw [if_neg hsend.ne_nil] at hlen
      rw [atEvery_sendEvents_iff (fun _ _ _ _ _ _ _ he => GwEvent.noConfusion he)
        fun _ _ _ _ _ he => GwEvent.noConfusion he]
      intro _ _ _ _
      refine ⟨fun _ _ _ he => GwEvent.noConfusion he, ?_⟩
      rintro _ _ _ ⟨rfl, rfl, rfl⟩
      rw [hlen]
      exact payload_take_le h.sim hj hc
  intro bufIdx lenByte ok hmem
  obtain ⟨pre, post, htr⟩ := List.append_of_mem hmem
  have hle := hall.at htr bufIdx lenByte ok rfl
  unfold wireLength
  unfold ethMaxPayload at hle ⊢
  omega

/-- One message of two bytes. -/
theorem ethPayload_le_one :
    ∃ s tr, (gateway canPduMap).run (GwState.start .zero) [blankRound 2 true 0] = some (s, tr) ∧
      .transmitted 0 7 true ∈ tr ∧ (7 : UInt16).toNat ≤ ethMaxPayload ∧ wireLength 7 ≤ 1522 := by
  obtain ⟨s, pre, c, hrun, -⟩ := run_blank_one 0
  refine ⟨s, _, hrun, by simp, ?_⟩
  refine ethPayload_le canPduMap .zero _ s _ (shortInput_blank_one 0) ⟨?_, fun _ _ _ => trivial⟩ hrun 0 7 true
    (by simp)
  intro r hr _
  obtain rfl : blankPdu 2 = r := Option.some.inj hr
  decide

/-- 22 frames of 64 bytes and one of 24 behind a closed gate: 1503 bytes. -/
theorem ethPayload_exceeds :
    ¬ ∀ (map : List CanIdToPduId) (u : UninitLocals) (is : List GwInput) (s : GwState)
      (tr : List GwEvent), (∀ i ∈ is, ShortInput i) →
      (gateway map).run (GwState.start u) is = some (s, tr) →
      ∀ bufIdx lenByte ok, .transmitted bufIdx lenByte ok ∈ tr →
        lenByte.toNat ≤ ethMaxPayload ∧ wireLength lenByte ≤ 1522 := by
  intro hall
  obtain ⟨s, pre, containerLen, c, hrun, -, hlen⟩ :=
    run_blank_sent 64 24 (by decide) (by decide) 22 0 (by decide) (by decide)
  have hle := (hall canPduMap .zero _ s _ (shortInput_blankRounds (by decide) (by decide) 22 0)
    hrun 0 containerLen true (by simp)).1
  rw [hlen] at hle
  exact absurd hle (by decide)

end CanTsn
