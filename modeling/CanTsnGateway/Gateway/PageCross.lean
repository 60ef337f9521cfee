import CanTsnGateway.Gateway.Bounds
import CanTsnGateway.Model.PageBoundary

/-!
# Frames and 4096-byte pages

The task takes any buffer the driver grants.  Whether the frames of a run lie in one page
each is then a matter of where the granted slots lie (`framesInOnePage_iff`): the test that
the file offers must not find a crossing.  With the ring at
0x34000E00 the first slot crosses a page on the first container of 538 bytes
(`frame_crosses_page`).
-/

namespace CanTsn

open Packer StepMachine

/-- Where the frame of the last granted buffer starts. -/
def lastFrame (tr : List GwEvent) : Option UInt32 :=
  tr.foldl (fun f e => match e with
    | .provided _ _ (.granted _ ethPayload _) => some (ethPayload - ethFrameHeaderLength.toUInt32)
    | _ => f) none

/-- A frame handed to `Eth_Transmit` lies in one page, header included. -/
def SentInOnePage (past : List GwEvent) (e : GwEvent) : Prop :=
  ∀ bufIdx lenByte ok, e = .transmitted bufIdx lenByte ok →
    ∃ frame, lastFrame past = some frame ∧ OnePage frame (ethFrameHeaderLength.toNat + lenByte.toNat)

/-- The frame ends inside the address space, and `Check_4KB_Boundary_Cross` finds no crossing
for it. -/
def PassesCheck (frame : UInt32) (n : Nat) : Prop :=
  frame.toNat + n ≤ 2 ^ 32 ∧ check4KBBoundaryCross frame n.toUInt16 = false

/-- In a round that offers its container, a granted slot passes the check for the frame. -/
def SlotInPage (map : List CanIdToPduId) (s : GwState) (i : GwInput) : Prop :=
  Offers map s i → ∀ bufIdx ethPayload lenByte, i.provide = .granted bufIdx ethPayload lenByte →
    PassesCheck (ethPayload - ethFrameHeaderLength.toUInt32) (ethFrameHeaderLength.toNat + loadedLen map s i)

/-- A frame over the end of the address space has left its page. -/
theorem passesCheck_iff (frame : UInt32) {n : Nat} (hpos : 0 < n) (hn : n < 2 ^ 16) :
    PassesCheck frame n ↔ OnePage frame n := by
  have htoNat : n.toUInt16.toNat = n := by
    rw [Nat.toUInt16_eq, UInt16.toNat_ofNat', Nat.mod_eq_of_lt hn]
  have hcheck := check4KBBoundaryCross_eq_false_iff frame n.toUInt16
  rw [htoNat] at hcheck
  constructor
  · rintro ⟨hle, hfalse⟩
    exact (hcheck hle).1 hfalse
  · intro hpage
    have hle : frame.toNat + n ≤ 2 ^ 32 := by
      have hoffset := (onePage_iff_offset frame n).1 hpage
      have hlt := frame.toNat_lt
      omega
    exact ⟨hle, (hcheck hle).2 hpage⟩

theorem sentInOnePage_of_quiet (past : List GwEvent) (e : GwEvent) (h : e.isSend = false) :
    SentInOnePage past e := by
  rintro bufIdx lenByte ok rfl
  cases h

theorem lastFrame_granted (past : List GwEvent) (fifoIdx : UInt8) (bufIdx ethPayload : UInt32)
    (lenByte : UInt16) (bytes : List UInt8) :
    lastFrame (past ++ [.provided fifoIdx txBufferRequest (.granted bufIdx ethPayload lenByte)] ++
      [.copied ethPayload lenByte bytes]) = some (ethPayload - ethFrameHeaderLength.toUInt32) := by
  unfold lastFrame
  rw [List.foldl_append, List.foldl_append]
  rfl

theorem slotInPage_iff {map : List CanIdToPduId} {s s₁ : GwState} {i : GwInput} {p : Packer RoutedPdu}
    {cause : SendCause} {past : List GwEvent} (h : Sim map s p) (hsend : Sending map s i p s₁ cause)
    (ho : Offers map s i) : SlotInPage map s i ↔ AtEvery SentInOnePage past (sendEvents s₁ i cause) := by
  have hlen := hsend.sim.len
  rw [if_neg hsend.ne_nil, ← loadedLen_eq i h] at hlen
  have h14 : ethFrameHeaderLength.toNat = 14 := rfl
  have hlt := s₁.containerLen.toNat_lt
  have hle := hsend.le
  rw [← loadedLen_eq i h] at hle
  have hroom : containerRoom = 1518 := rfl
  have hcheck := fun frame : UInt32 => passesCheck_iff frame
    (n := ethFrameHeaderLength.toNat + loadedLen map s i) (by omega) (by omega)
  rw [atEvery_sendEvents_iff (fun _ _ _ _ _ _ _ he => GwEvent.noConfusion he)
    fun _ _ _ _ _ he => GwEvent.noConfusion he]
  constructor
  · intro hc bufIdx ethPayload lenByte hp
    refine ⟨fun _ _ _ he => GwEvent.noConfusion he, ?_⟩
    rintro _ _ _ ⟨rfl, rfl, rfl⟩
    refine ⟨_, lastFrame_granted past _ bufIdx ethPayload lenByte _, ?_⟩
    rw [hlen]
    exact (hcheck _).1 (hc ho bufIdx ethPayload lenByte hp)
  · intro hall _ bufIdx ethPayload lenByte hp
    obtain ⟨frame, hframe, hpage⟩ := (hall bufIdx ethPayload lenByte hp).2 _ _ _ rfl
    rw [lastFrame_granted] at hframe
    rw [← Option.some.inj hframe, hlen] at hpage
    exact (hcheck _).2 hpage

/-- **Frames and pages.**  All frames of a run lie in one page each if and only if every
slot granted to an offered container passes the check for its frame. -/
theorem framesInOnePage_iff (map : List CanIdToPduId) (u : UninitLocals) (is : List GwInput)
    (s : GwState) (tr : List GwEvent) (hrun : (gateway map).run (GwState.start u) is = some (s, tr)) :
    AtEvery SentInOnePage [] tr ↔ (gateway map).AllSteps (SlotInPage map) (GwState.start u) is := by
  refine ((gateway map).allSteps_iff_atEvery (fun s tr => ∃ p, History map tr s p) ?_
    ⟨empty, history_start map u⟩ hrun).symm
  rintro s tr i s₁ es ⟨p, h⟩ hs
  refine ⟨⟨packRound map s i p, history_step h hs⟩, ?_⟩
  rcases round_offers h hs with ⟨ho, hq⟩ | ⟨ho, s₂, e₁, cause, hsend, hq, -, rfl⟩
  · exact iff_of_true (fun h => absurd h ho)
      (atEvery_of_forall_mem fun past e he => sentInOnePage_of_quiet past e (hq e he))
  · rw [atEvery_append, and_iff_right
      (atEvery_of_forall_mem fun past e he => sentInOnePage_of_quiet past e (hq e he))]
    exact slotInPage_iff h.sim hsend ho

/-- One message of two bytes in a slot at the start of a page. -/
theorem framesInOnePage_aligned :
    ∃ s tr, (gateway canPduMap).run (GwState.start .zero) [blankRound 2 true 0x3400000E] = some (s, tr) ∧
      AtEvery SentInOnePage [] tr := by
  obtain ⟨s, pre, c, hrun, -⟩ := run_blank_one 0x3400000E
  refine ⟨s, _, hrun, (framesInOnePage_iff canPduMap .zero _ s _ hrun).2 ⟨?_, fun _ _ _ => trivial⟩⟩
  rintro - _ _ _ ⟨rfl, rfl, rfl⟩
  exact ⟨by decide, by decide⟩

/-- Eight frames of 64 bytes, the ring 512 bytes before the end of a page: the driver
grants the first slot and takes the frame of 552 bytes. -/
theorem frame_crosses_page :
    ¬ ∀ (buffer : UInt8 → UInt32) (map : List CanIdToPduId) (u : UninitLocals) (is : List GwInput)
      (s : GwState) (tr : List GwEvent) (d : EthTx),
      (gateway map).run (GwState.start u) is = some (s, tr) → EthRun (EthTx.init buffer) tr d →
      AtEvery SentInOnePage [] tr := by
  intro hall
  obtain ⟨s, pre, containerLen, c, hrun, hquiet, hlen⟩ :=
    run_blank_sent 64 64 (by decide) (by decide) 7 0x34000E0E (by decide) (by decide)
  have hlen538 : containerLen = 538 := UInt16.toNat_inj.1 hlen
  subst hlen538
  obtain ⟨d, hd⟩ := ethRun_send (EthTx.init fun _ => 0x34000E00) 0 0 0x34000E0E 1522 538
    (containerBytes (List.replicate 7 (blankPdu 64) ++ [blankPdu 64])) true c (by decide) (by decide)
  have hpage := hall _ canPduMap .zero _ s _ d hrun (ethRun_quiet hquiet hd)
  rw [atEvery_append] at hpage
  obtain ⟨frame, hframe, hone⟩ := hpage.2.2.2.1 0 538 true rfl
  rw [lastFrame_granted] at hframe
  rw [← Option.some.inj hframe, onePage_iff_offset] at hone
  exact absurd hone (by decide)

end CanTsn
