import CanTsnGateway.Mailbox.Receive

/-!
# Sending from the RAM

A message buffer holds one frame.  `FlexCAN_Ip_Send` refuses a request until
`FlexCAN_Ip_MainFunctionWrite` has seen the flag of the last one, so that nothing is written
over a frame that the controller has still to send.

    the frames of a message buffer go on the bus as they were accepted, in order and each
    once; at most the last one is still to go                            (can_bus_in_order)
-/

namespace CanTsn

open ByteMemory StepMachine

/-- The frames that `FlexCAN_Ip_Send` has taken for a message buffer. -/
def acceptedFrames (inst mb : UInt8) (tr : List CanEvent) : List BusFrame :=
  tr.filterMap fun e => match e with
    | .send i m info msgId (some mbData) .success =>
      if i = inst ∧ m = mb then some (requestedFrame info.codeStatus msgId mbData false) else none
    | _ => none

/-- The frames that have gone on the bus from a message buffer. -/
def busFrames (inst mb : UInt8) (tr : List CanEvent) : List BusFrame :=
  tr.filterMap fun e => match e with
    | .onBus i m frame => if i = inst ∧ m = mb then some frame else none
    | _ => none

/-- The frame that the controller has still to send. -/
def CanNode.pending (t : UInt8 → FlexcanType) (s : CanNode) (inst mb : UInt8) : Option BusFrame :=
  if mbCode (s.ram inst) (mbRegion (t inst) mb) = txData then some (busFrame (s.ram inst) (mbRegion (t inst) mb))
  else none

theorem acceptedFrames_append (inst mb : UInt8) (tr es : List CanEvent) :
    acceptedFrames inst mb (tr ++ es) = acceptedFrames inst mb tr ++ acceptedFrames inst mb es :=
  List.filterMap_append

theorem busFrames_append (inst mb : UInt8) (tr es : List CanEvent) :
    busFrames inst mb (tr ++ es) = busFrames inst mb tr ++ busFrames inst mb es :=
  List.filterMap_append

/-- A message buffer for sending. -/
structure TxInv (t : UInt8 → FlexcanType) (inst mb : UInt8) (s : CanNode) (tr : List CanEvent) : Prop where
  frames : acceptedFrames inst mb tr = busFrames inst mb tr ++ (s.pending t inst mb).toList
  idle : (s.rx.mbs inst mb).state = .idle → s.pending t inst mb = none
  flag : s.iflag inst mb = true → s.pending t inst mb = none
  fits : ∀ f, s.pending t inst mb = some f → f.data.length ≤ mbRoom (t inst) mb

section Steps

variable {t : UInt8 → FlexcanType} {p : CanRxTaskParam} {s s₁ : CanNode} {tr es : List CanEvent}
  {inst mb i m : UInt8}

/-- A step that leaves the message buffer alone. -/
theorem TxInv.keep (h : TxInv t inst mb s tr) (hmbs : s₁.rx.mbs inst mb = s.rx.mbs inst mb)
    (hflag : s₁.iflag inst mb = s.iflag inst mb) (hpending : s₁.pending t inst mb = s.pending t inst mb)
    (haccepted : acceptedFrames inst mb es = []) (hbus : busFrames inst mb es = []) : TxInv t inst mb s₁ (tr ++ es) where
  frames := by
    rw [acceptedFrames_append, busFrames_append, haccepted, hbus, List.append_nil, List.append_nil, hpending]
    exact h.frames
  idle := by
    rw [hmbs, hpending]
    exact h.idle
  flag := by
    rw [hflag, hpending]
    exact h.flag
  fits := by
    rw [hpending]
    exact h.fits

/-- What is written to another message buffer. -/
theorem pending_other {ram : Memory} {n : Nat} (hl : ∀ inst, MbLayout (t inst)) (h : TxInv t inst mb s tr)
    (hmb : mb < maxMbNum) (hm : m < maxMbNum) (hne : ¬(inst = i ∧ mb = m)) (hn : n ≤ 8 + mbRoom (t i) m)
    (hsame : SameOutside (s.ram i) ram (mbRegion (t i) m) n) (hram : s₁.ram = (s.setRam i ram).ram) :
    s₁.pending t inst mb = s.pending t inst mb := by
  have hfits := h.fits
  unfold CanNode.pending at hfits ⊢
  rw [hram]
  show (if mbCode (if inst = i then ram else s.ram inst) _ = txData then
    some (busFrame (if inst = i then ram else s.ram inst) _) else none) = _
  by_cases heq : inst = i
  · subst heq
    have hsame' := hsame.mono (Nat.le_refl _) (show (mbRegion (t inst) m).toNat + n ≤ _ + (8 + mbRoom (t inst) m) by omega)
    have hmm : m ≠ mb := fun h => hne ⟨rfl, h.symm⟩
    rw [if_pos rfl, mbCode_of_load (load_other (hl inst) hm hmb hmm hsame')]
    split
    · next hcode =>
      rw [if_pos hcode] at hfits
      rw [(frame_other (hl inst) hm hmb hmm (hfits _ rfl) hsame').1]
    · rfl
  · rw [if_neg heq]

/-! ## The receive side -/

/-- A read leaves the other mailboxes alone. -/
theorem mainFunctionRead_other (t : UInt8 → FlexcanType) (s : CanNode) (hne : ¬(inst = i ∧ mb = m)) :
    (s.flexcanIpMainFunctionRead t i m).1.rx.mbs inst mb = s.rx.mbs inst mb ∧
      (s.flexcanIpMainFunctionRead t i m).1.iflag inst mb = s.iflag inst mb ∧
      (s.flexcanIpMainFunctionRead t i m).1.ram = s.ram ∧
      acceptedFrames inst mb (s.flexcanIpMainFunctionRead t i m).2 = [] ∧
      busFrames inst mb (s.flexcanIpMainFunctionRead t i m).2 = [] := by
  unfold CanNode.flexcanIpMainFunctionRead
  split
  · split
    · unfold CanNode.flexcanIrqHandlerRxMb
      simp only [can0CallbackSkku_eq]
      refine ⟨?_, if_neg hne, rfl, rfl, rfl⟩
      rw [(onlyMb_disableAfterCallback _ i m _).others inst mb hne]
      refine ((onlyMb_rearm _ i m).others inst mb hne).trans ?_
      obtain ⟨shadow, rxData, handlerData, hstore⟩ := store_eq s.rx ((s.rx.mbs i m).pMBmessage.getD .handlerData)
        (s.flexcanGetMsgBuff t i m)
      unfold CanNode.readMsgBuff
      simp only [hstore]
      exact if_neg hne
    · exact ⟨rfl, rfl, rfl, rfl, rfl⟩
  · exact ⟨rfl, rfl, rfl, rfl, rfl⟩

theorem poll_keeps (h : TxInv t inst mb s tr) (hpoll : ¬ p.Polls inst mb) :
    TxInv t inst mb (s.poll t p).1 (tr ++ (s.poll t p).2) := by
  unfold CanNode.poll
  cases hpos : p.pollOrder[s.rx.next]? with
  | none => exact h.keep rfl rfl rfl rfl rfl
  | some r =>
    obtain ⟨i, k⟩ := r
    have hne : ¬(inst = i ∧ mb = p.mb i k) := by
      rintro ⟨rfl, rfl⟩
      exact hpoll ⟨k, List.mem_of_getElem? hpos, rfl⟩
    obtain ⟨hmbs, hflag, hram, haccepted, hbus⟩ := mainFunctionRead_other t
      { s with rx := { s.rx with next := (s.rx.next + 1) % p.pollOrder.length } } hne
    exact h.keep hmbs hflag (by unfold CanNode.pending; rw [hram]) haccepted hbus

theorem receive_keeps (h : TxInv t inst mb s tr) : TxInv t inst mb s.queueReceive.1 (tr ++ s.queueReceive.2) := by
  unfold CanNode.queueReceive
  simp only
  cases (BoundedQueue.receive s.rx.xQueueCan).1 with
  | none => exact h.keep rfl rfl rfl rfl rfl
  | some m => exact h.keep rfl rfl rfl rfl rfl

/-! ## Sending -/

section Requests

variable {info : DataInfo} {msgId : UInt32} {bs : List UInt8}

theorem acceptedFrames_send (inst mb i m : UInt8) (info : DataInfo) (msgId : UInt32) (bs : List UInt8) :
    acceptedFrames inst mb [.send i m info msgId (some bs) .success] =
      if i = inst ∧ m = mb then [requestedFrame info.codeStatus msgId bs false] else [] := by
  unfold acceptedFrames
  by_cases hc : i = inst ∧ m = mb
  · rw [if_pos hc]
    exact List.filterMap_cons_some (if_pos hc)
  · rw [if_neg hc]
    exact List.filterMap_cons_none (if_neg hc)

/-- A request that is refused is no accepted frame. -/
theorem acceptedFrames_refused {result : FlexcanIpStatus} (h : result ≠ .success) :
    acceptedFrames inst mb [.send i m info msgId (some bs) result] = [] := by
  cases result with
  | success => exact absurd rfl h
  | busy => rfl
  | buffOutOfRange => rfl

/-- **A taken request** puts its frame into the message buffer, which had none to send. -/
theorem send_pending (hl : ∀ inst, MbLayout (t inst)) (hbs : bs.length = info.dataLength.toNat)
    (hfits : info.dataLength.toNat ≤ mbRoom (t inst) mb) (he : SendEffect t s inst mb info msgId (some bs) s₁) :
    s₁.pending t inst mb = some (requestedFrame info.codeStatus msgId bs false) ∧
      (requestedFrame info.codeStatus msgId bs false).data.length ≤ mbRoom (t inst) mb := by
  have hmb := (he.sameOutside hl hfits).1
  have hp := (hl inst).room mb hmb
  have hcode : info.codeStatus.code = txData ∨ info.codeStatus.code = txRemote := by
    show (if info.isRemote then txRemote else txData) = txData ∨ (if info.isRemote then txRemote else txData) = txRemote
    cases info.isRemote with
    | false => exact Or.inl rfl
    | true => exact Or.inr rfl
  obtain ⟨hframe, htx, -⟩ := busFrame_setTxMsgBuff (s.ram inst) msgId false (show _ = info.codeStatus.dataLen.toNat from hbs)
    hfits hp ((hl inst).fit mb hmb) hcode
  have hram : s₁.ram inst =
      flexcanSetTxMsgBuff (s.ram inst) (mbRegion (t inst) mb) info.codeStatus msgId (some bs) false := by
    rw [he.ram]
    exact if_pos rfl
  refine ⟨?_, ?_⟩
  · unfold CanNode.pending
    rw [hram, if_pos htx, hframe]
  · obtain ⟨-, hroom64, -⟩ := payload_bounds _ hp
    rw [length_requestedFrame msgId false (by omega), hbs]
    exact (frameLength_bounds _ (by omega)).2.2 _ hp hfits

theorem send_keeps (hl : ∀ inst, MbLayout (t inst)) (h : TxInv t inst mb s tr) (hmb : mb < maxMbNum)
    (hbs : bs.length = info.dataLength.toNat) (hfits : info.dataLength.toNat ≤ mbRoom (t i) m)
    (he : SendEffect t s i m info msgId (some bs) s₁) :
    TxInv t inst mb s₁ (tr ++ [.send i m info msgId (some bs) .success]) := by
  by_cases heq : inst = i ∧ mb = m
  · obtain ⟨rfl, rfl⟩ := heq
    obtain ⟨hpending, hroom⟩ := send_pending hl hbs hfits he
    refine ⟨?_, fun hidle => ?_, fun hflag => ?_, fun f hf => ?_⟩
    · have hframes := h.frames
      rw [h.idle he.idle, Option.toList_none, List.append_nil] at hframes
      rw [acceptedFrames_append, busFrames_append, acceptedFrames_send, if_pos ⟨rfl, rfl⟩, hframes, hpending]
      simp [busFrames]
    · rw [he.mbs] at hidle
      have hbusy : (s.setBusy inst mb info).rx.mbs inst mb =
          { s.rx.mbs inst mb with state := .txBusy, isPolling := info.isPolling } := if_pos ⟨rfl, rfl⟩
      rw [hbusy] at hidle
      cases hidle
    · rw [he.iflag] at hflag
      have hclear : (s.setFlag inst mb false).iflag inst mb = false := if_pos ⟨rfl, rfl⟩
      rw [hclear] at hflag
      cases hflag
    · rw [hpending] at hf
      rw [← Option.some.inj hf]
      exact hroom
  · obtain ⟨hm, hsame⟩ := he.sameOutside hl hfits
    have hne : ¬(i = inst ∧ m = mb) := fun hc => heq ⟨hc.1.symm, hc.2.symm⟩
    refine h.keep ?_ ?_ (pending_other hl h hmb hm heq (Nat.le_refl _) hsame he.ram) ?_ rfl
    · rw [he.mbs]
      exact if_neg heq
    · rw [he.iflag]
      exact if_neg heq
    · rw [acceptedFrames_send, if_neg hne]

end Requests

theorem mainFunctionWrite_keeps (h : TxInv t inst mb s tr) :
    TxInv t inst mb (s.flexcanIpMainFunctionWrite t i m).1 (tr ++ (s.flexcanIpMainFunctionWrite t i m).2) := by
  rcases mainFunctionWrite_cases t s i m with ⟨heq, -⟩ | ⟨s', heq, hflag, hbusy, hrx, hram, hiflag⟩
  · rw [heq]
    exact h.keep rfl rfl rfl rfl rfl
  · have hpending : s'.pending t inst mb = s.pending t inst mb := by
      unfold CanNode.pending
      rw [hram]
    rw [heq]
    by_cases hone : inst = i ∧ mb = m
    · obtain ⟨rfl, rfl⟩ := hone
      have hnone := h.flag hflag
      refine ⟨?_, fun _ => hpending.trans hnone, fun _ => hpending.trans hnone, fun f hf => ?_⟩
      · rw [acceptedFrames_append, busFrames_append, hpending]
        simpa [acceptedFrames, busFrames] using h.frames
      · rw [hpending] at hf
        exact h.fits f hf
    · refine h.keep ?_ ?_ hpending rfl rfl
      · rw [hrx]
        exact if_neg hone
      · rcases hiflag with hiflag | hiflag
        · rw [hiflag]
        · rw [hiflag]
          exact if_neg hone

/-! ## The controllers -/

theorem arrive_keeps {f : CanFrame} {ram : Memory} (hl : ∀ inst, MbLayout (t inst)) (h : TxInv t inst mb s tr)
    (hmb : mb < maxMbNum) (hne : ¬(inst = i ∧ mb = m)) (hm : m < maxMbNum)
    (hf : Delivers (s.ram i) (mbRegion (t i) m) (mbRoom (t i) m) f ram) :
    TxInv t inst mb (s.frameArrives t i m f ram).1 (tr ++ (s.frameArrives t i m f ram).2) :=
  h.keep rfl (if_neg hne) (pending_other hl h hmb hm hne (Nat.le_refl _) hf.others rfl) rfl rfl

theorem busFrames_onBus (inst mb i m : UInt8) (f : BusFrame) :
    busFrames inst mb [.onBus i m f] = if i = inst ∧ m = mb then [f] else [] := by
  unfold busFrames
  by_cases hc : i = inst ∧ m = mb
  · rw [if_pos hc]
    exact List.filterMap_cons_some (if_pos hc)
  · rw [if_neg hc]
    exact List.filterMap_cons_none (if_neg hc)

/-- The frame leaves its message buffer. -/
theorem transmit_keeps {ram : Memory} (hl : ∀ inst, MbLayout (t inst)) (h : TxInv t inst mb s tr) (hmb : mb < maxMbNum)
    (hm : m < maxMbNum) (hcode : mbCode (s.ram i) (mbRegion (t i) m) = txData)
    (hsends : Sends (s.ram i) (mbRegion (t i) m) ram) :
    TxInv t inst mb (s.frameSent t i m ram).1 (tr ++ (s.frameSent t i m ram).2) := by
  by_cases heq : inst = i ∧ mb = m
  · obtain ⟨rfl, rfl⟩ := heq
    have hbefore : s.pending t inst mb = some (busFrame (s.ram inst) (mbRegion (t inst) mb)) := if_pos hcode
    have hafter : (s.frameSent t inst mb ram).1.pending t inst mb = none := by
      have hram : (s.frameSent t inst mb ram).1.ram inst = ram := if_pos rfl
      unfold CanNode.pending
      rw [hram]
      exact if_neg hsends.code
    have hev : (s.frameSent t inst mb ram).2 = [.onBus inst mb (busFrame (s.ram inst) (mbRegion (t inst) mb))] := rfl
    refine ⟨?_, fun _ => hafter, fun _ => hafter, fun f hf => ?_⟩
    · have hframes := h.frames
      rw [hbefore] at hframes
      rw [acceptedFrames_append, busFrames_append, hafter, hev, busFrames_onBus, if_pos ⟨rfl, rfl⟩, hframes]
      simp [acceptedFrames]
    · rw [hafter] at hf
      cases hf
  · have hne : ¬(i = inst ∧ m = mb) := fun hc => heq ⟨hc.1.symm, hc.2.symm⟩
    refine h.keep rfl (if_neg heq) (pending_other hl h hmb hm heq (by omega) hsends.others rfl) rfl ?_
    exact (busFrames_onBus inst mb i m _).trans (if_neg hne)

/-! ## Steps and runs -/

theorem tx_step {j : CanInput} (hl : ∀ inst, MbLayout (t inst)) (hpoll : ¬ p.Polls inst mb) (hmb : mb < maxMbNum)
    (h : TxInv t inst mb s tr) (hC : j.Proper t p s) (hs : (canNode t p).step s j = some (s₁, es)) :
    TxInv t inst mb s₁ (tr ++ es) := by
  cases j with
  | arrive i m f ram =>
    have hk := arrive_keeps hl h hmb (fun hc => hpoll (by rw [hc.1, hc.2]; exact hC.1)) hC.2.1 hC.2.2
    have hr : s.frameArrives t i m f ram = (s₁, es) := Option.some.inj hs
    rwa [hr] at hk
  | poll =>
    have hk := poll_keeps h hpoll
    have hr : s.poll t p = (s₁, es) := Option.some.inj hs
    rwa [hr] at hk
  | receive =>
    have hk := receive_keeps h
    have hr : s.queueReceive = (s₁, es) := Option.some.inj hs
    rwa [hr] at hk
  | send i m info msgId mbData =>
    obtain ⟨-, hfits, bs, rfl, hbs⟩ := hC
    have hstep : (s.flexcanIpSend t i m info msgId (some bs)).map
        (fun r => (r.2, [CanEvent.send i m info msgId (some bs) r.1])) = some (s₁, es) := hs
    rcases send_cases s msgId (some bs) (assert_of_le hfits) with ⟨result, heq, hno, -⟩ | ⟨s', heq, heff⟩
    · rw [heq] at hstep
      obtain ⟨rfl, rfl⟩ := Prod.mk.inj (Option.some.inj hstep)
      exact h.keep rfl rfl rfl (acceptedFrames_refused hno) rfl
    · rw [heq] at hstep
      obtain ⟨rfl, rfl⟩ := Prod.mk.inj (Option.some.inj hstep)
      exact send_keeps hl h hmb hbs hfits heff
  | mainFunctionWrite i m =>
    have hk := mainFunctionWrite_keeps (i := i) (m := m) h
    have hr : s.flexcanIpMainFunctionWrite t i m = (s₁, es) := Option.some.inj hs
    rwa [hr] at hk
  | transmit i m ram =>
    have hk := transmit_keeps hl h hmb hC.2.1 hC.2.2.1 hC.2.2.2
    have hr : s.frameSent t i m ram = (s₁, es) := Option.some.inj hs
    rwa [hr] at hk

theorem txInv_start {m ram : UInt8 → Memory} {handlerData : FlexcanIpMsgBuff} {capacity : Nat}
    (hspace : ∀ inst, (t inst).InSpace) (hinit : ∀ inst, flexcanInitSkku (t inst) inst (m inst) = some (ram inst))
    (hmb : mb < maxMbNum) : TxInv t inst mb (.start p handlerData capacity ram) [] := by
  have hnone : (CanNode.start p handlerData capacity ram).pending t inst mb = none :=
    if_neg ((init_spec (hspace inst) (hinit inst)).2 mb hmb)
  refine ⟨?_, fun _ => hnone, fun _ => hnone, fun f hf => ?_⟩
  · rw [hnone]
    rfl
  · rw [hnone] at hf
    cases hf

end Steps

/-- **A message buffer's frames go on the bus in order**, each once. -/
theorem can_bus_in_order {t : UInt8 → FlexcanType} {p : CanRxTaskParam} {m ram : UInt8 → Memory}
    {handlerData : FlexcanIpMsgBuff} {capacity : Nat} {is : List CanInput} {s : CanNode} {tr : List CanEvent}
    {inst mb : UInt8} (hspace : ∀ inst, (t inst).InSpace)
    (hinit : ∀ inst, flexcanInitSkku (t inst) inst (m inst) = some (ram inst))
    (hC : (canNode t p).AllSteps (CanInput.Proper t p) (.start p handlerData capacity ram) is)
    (hrun : (canNode t p).run (.start p handlerData capacity ram) is = some (s, tr))
    (hpoll : ¬ p.Polls inst mb) (hmb : mb < maxMbNum) :
    acceptedFrames inst mb tr = busFrames inst mb tr ++ (s.pending t inst mb).toList := by
  have hl : ∀ inst, MbLayout (t inst) := fun inst => (init_spec (hspace inst) (hinit inst)).1
  exact ((canNode t p).run_invariant (TxInv t inst mb)
    (fun _ _ _ _ _ h hC hs => tx_step hl hpoll hmb h hC hs) (txInv_start hspace hinit hmb) hC hrun).frames

/-- The RAM with a frame of message buffer 4 in it, as the send tasks ask for. -/
def ramBusy (m : Memory) (bs : List UInt8) : Memory :=
  flexcanSetTxMsgBuff m (mbRegion controller64 4) txInfo.codeStatus 1 (some bs) false

/-- The RAM after message buffer 4 has been sent. -/
def ramSent (m : Memory) : Memory := WordBytes.store m (mbRegion controller64 4) 0

theorem sends_ramBusy (m : Memory) {bs : List UInt8} (hbs : bs.length = 64) :
    mbCode (ramBusy m bs) (mbRegion controller64 4) = txData ∧
      Sends (ramBusy m bs) (mbRegion controller64 4) (ramSent (ramBusy m bs)) where
  left := (busFrame_setTxMsgBuff (p := 64) m 1 false hbs (by decide) (by decide) (by decide) (Or.inl rfl)).2.1
  right := ⟨mbCode_zero (WordBytes.load_store _ _ _), sameOutside_store (Nat.le_refl _) (by decide)⟩

/-- Two frames of message buffer 4, the first one on the bus. -/
def sendTwice : List CanInput :=
  [.send 0 4 txInfo 1 (some (List.replicate 64 7)),
    .transmit 0 4 (ramSent (ramBusy (ram64 0) (List.replicate 64 7))), .mainFunctionWrite 0 4,
    .send 0 4 txInfo 1 (some (List.replicate 64 8))]

theorem can_bus_in_order_one :
    ∃ s tr, (canNode (fun _ => controller64) rxp).run (.start rxp .zero 64 ram64) sendTwice = some (s, tr) ∧
      (busFrames 0 4 tr).length = 1 ∧
      acceptedFrames 0 4 tr = busFrames 0 4 tr ++ (s.pending (fun _ => controller64) 0 4).toList := by
  have hpoll : ¬ rxp.Polls 0 4 := fun h => absurd (rxp_polls h) (by decide)
  have hsends := sends_ramBusy (ram64 0) (show (List.replicate 64 (7 : UInt8)).length = 64 from rfl)
  have hC : (canNode (fun _ => controller64) rxp).AllSteps (CanInput.Proper (fun _ => controller64) rxp)
      (.start rxp .zero 64 ram64) sendTwice :=
    .cons _ ⟨hpoll, by decide, _, rfl, rfl⟩ rfl
      (.cons _ ⟨hpoll, by decide, hsends⟩ rfl
        (.cons _ trivial rfl (.cons _ ⟨hpoll, by decide, _, rfl, rfl⟩ rfl trivial)))
  exact ⟨_, _, rfl, rfl, can_bus_in_order (m := fun _ _ => 0) (fun _ => controller64_inSpace) init_ram64 hC rfl hpoll
    (by decide)⟩

end CanTsn
