import CanTsnGateway.Mailbox.Layout
import CanTsnGateway.Receive.Fidelity

/-!
# Receiving from the RAM

A frame that waits in `available` of `canReceivePollingTask` is in the RAM of a node, in the
message buffer whose flag is set (`Mirrors`).  Sending from other message buffers leaves it
there.

    a run of a node, seen from the receive side, is one of `canReceivePollingTask`
                                                               (node_receives_frames)
-/

namespace CanTsn

open ByteMemory StepMachine

/-- The steps of the receive side. -/
def CanInput.rxInput : CanInput → Option RxInput
  | .arrive inst mb frame _ => some (.arrive inst mb frame)
  | .poll => some .poll
  | .receive => some .receive
  | _ => none

/-- The events of the receive side. -/
def CanEvent.rxEvent : CanEvent → Option RxEvent
  | .rx e => some e
  | _ => none

theorem filterMap_rx (es : List RxEvent) : (es.map CanEvent.rx).filterMap CanEvent.rxEvent = es := by
  rw [List.filterMap_map]
  exact List.filterMap_some

/-! ## The driver's state -/

/-- For the polled mailboxes, and but for masks and `available`, the states are the same. -/
structure SameRx (p : CanRxTaskParam) (x y : RxState) : Prop where
  mbs : ∀ inst mb, p.Polls inst mb → x.mbs inst mb = y.mbs inst mb
  rest : y = { x with mbs := y.mbs, imask := y.imask, available := y.available }

namespace SameRx

variable {p : CanRxTaskParam} {x y : RxState} {inst mb : UInt8}

theorem setMb (h : SameRx p x y) (inst mb : UInt8) (v : FlexcanIpMbHandle) :
    SameRx p (x.setMb inst mb v) (y.setMb inst mb v) where
  mbs i m hpoll := by
    show (if _ then v else x.mbs i m) = if _ then v else y.mbs i m
    rw [h.mbs i m hpoll]
  rest := by
    rw [h.rest]
    rfl

/-- A mailbox that is not polled may change. -/
theorem setMb_left (h : SameRx p x y) (hpoll : ¬ p.Polls inst mb) (v : FlexcanIpMbHandle) :
    SameRx p (x.setMb inst mb v) y where
  mbs i m hpoll' := by
    refine (if_neg ?_).trans (h.mbs i m hpoll')
    rintro ⟨rfl, rfl⟩
    exact hpoll hpoll'
  rest := h.rest

theorem store (h : SameRx p x y) (ptr : MsgBuffPtr) (m : FlexcanIpMsgBuff) : SameRx p (x.store ptr m) (y.store ptr m) := by
  rw [h.rest]
  cases ptr <;> exact ⟨h.mbs, rfl⟩

theorem setAvailable (h : SameRx p x y) (inst mb : UInt8) (f : Option CanFrame) :
    SameRx p x (y.setAvailable inst mb f) := by
  rw [h.rest]
  exact ⟨h.mbs, rfl⟩

theorem setMsgBuffIntCmd (h : SameRx p x y) (inst mb : UInt8) (enable : Bool) :
    SameRx p (flexcanSetMsgBuffIntCmd x inst mb enable) (flexcanSetMsgBuffIntCmd y inst mb enable) := by
  rw [h.rest]
  exact ⟨h.mbs, rfl⟩

theorem rearm (h : SameRx p x y) (hpoll : p.Polls inst mb) :
    SameRx p (CanTsn.rearm x inst mb) (CanTsn.rearm y inst mb) := by
  unfold CanTsn.rearm
  split
  · rw [flexcanIpReceive_polling, flexcanIpReceive_polling, h.mbs inst mb hpoll]
    split
    · exact h.setMb inst mb _
    · exact h
  · exact h

theorem callback (h : SameRx p x y) (hpoll : p.Polls inst mb) :
    (can0CallbackSkku x inst mb).1 = (can0CallbackSkku y inst mb).1 ∧
      SameRx p (can0CallbackSkku x inst mb).2 (can0CallbackSkku y inst mb).2 := by
  have hrearm := h.rearm hpoll
  have hstats : y.canStats = x.canStats := by rw [h.rest]
  have hqueue : y.xQueueCan = x.xQueueCan := by rw [h.rest]
  have hdata : y.rxData = x.rxData := by rw [h.rest]
  rw [can0CallbackSkku_eq, can0CallbackSkku_eq, hstats, hqueue, hdata]
  refine ⟨rfl, hrearm.mbs, ?_⟩
  rw [hrearm.rest]

theorem disableAfterCallback (h : SameRx p x y) (hpoll : p.Polls inst mb) (bCurrentIntStat : Bool) :
    SameRx p (CanTsn.disableAfterCallback x inst mb bCurrentIntStat)
      (CanTsn.disableAfterCallback y inst mb bCurrentIntStat) := by
  unfold CanTsn.disableAfterCallback
  simp only [h.mbs inst mb hpoll]
  split
  · exact (h.setMb inst mb _).setMsgBuffIntCmd inst mb false
  · split
    · exact h.setMsgBuffIntCmd inst mb false
    · exact h

theorem deref (h : SameRx p x y) (ptr : MsgBuffPtr) : y.deref ptr = x.deref ptr := by
  rw [h.rest]
  cases ptr <;> rfl

end SameRx

/-! ## The RAM -/

section Simulation

variable {t : UInt8 → FlexcanType} {p : CanRxTaskParam} {s : CanNode} {a : RxState} {inst mb : UInt8}

/-- `f` is in the message buffer. -/
structure Waits (t : FlexcanType) (m : Memory) (mb : UInt8) (f : CanFrame) : Prop where
  id : (busFrame m (mbRegion t mb)).id = f.msgId
  data : (busFrame m (mbRegion t mb)).data = f.data
  prio : (WordBytes.load m (mbRegion t mb + 4)).toNat < 2 ^ 29
  fits : f.data.length ≤ mbRoom t mb
  range : mb < maxMbNum

/-- The node is in the state `a` of the receive side. -/
structure Mirrors (t : UInt8 → FlexcanType) (p : CanRxTaskParam) (s : CanNode) (a : RxState) : Prop where
  same : SameRx p s.rx a
  flag : ∀ inst mb, p.Polls inst mb → s.iflag inst mb = (a.available inst mb).isSome
  frame : ∀ inst mb f, p.Polls inst mb → a.available inst mb = some f → Waits (t inst) (s.ram inst) mb f
  receiving : ∀ inst mb, p.Polls inst mb → (a.mbs inst mb).state ≠ .txBusy

/-- The frame stays while other message buffers are written. -/
theorem Waits.of_sameOutside {t : FlexcanType} {m m' : Memory} {mb mb' : UInt8} {f : CanFrame} {n : Nat} (hl : MbLayout t)
    (h : Waits t m mb f) (hmb' : mb' < maxMbNum) (hne : mb' ≠ mb) (hn : n ≤ 8 + mbRoom t mb')
    (hsame : SameOutside m m' (mbRegion t mb') n) : Waits t m' mb f := by
  obtain ⟨hframe, hidword⟩ := frame_other hl hmb' h.range hne (by rw [h.data]; exact h.fits)
    (hsame.mono (Nat.le_refl _) (by omega))
  exact ⟨by rw [hframe]; exact h.id, by rw [hframe]; exact h.data, by rw [hidword]; exact h.prio, h.fits, h.range⟩

/-- What is read is the frame. -/
theorem getMsgBuff_waits {f : CanFrame} (h : Waits (t inst) (s.ram inst) mb f) :
    s.flexcanGetMsgBuff t inst mb =
      flexcanGetMsgBuff (s.rx.deref ((s.rx.mbs inst mb).pMBmessage.getD .handlerData)) f :=
  getMsgBuff_eq _ h.id h.data h.prio h.fits

theorem ofMsgBuff_flexcanGetMsgBuff (b : FlexcanIpMsgBuff) (f : CanFrame) : CanFrame.ofMsgBuff (flexcanGetMsgBuff b f) = f := by
  obtain ⟨msgId, data, hle⟩ := f
  have hlen : data.length.toUInt8.toNat = data.length := by
    rw [Nat.toUInt8_eq, UInt8.toNat_ofNat']
    omega
  unfold CanFrame.ofMsgBuff flexcanGetMsgBuff
  simp only [hlen]
  congr 1
  exact List.take_left

/-- A step that leaves the polled mailboxes alone. -/
theorem Mirrors.of_other {s' : CanNode} (h : Mirrors t p s a) (hpoll : ¬ p.Polls inst mb) (hsame : SameRx p s'.rx a)
    (hflag : ∀ i m, ¬(i = inst ∧ m = mb) → s'.iflag i m = s.iflag i m)
    (hframe : ∀ i m f, p.Polls i m → Waits (t i) (s.ram i) m f → Waits (t i) (s'.ram i) m f) : Mirrors t p s' a where
  same := hsame
  flag i m hp := by
    rw [hflag i m (by rintro ⟨rfl, rfl⟩; exact hpoll hp)]
    exact h.flag i m hp
  frame i m f hp hav := hframe i m f hp (h.frame i m f hp hav)
  receiving := h.receiving

/-- The RAM of an instance is written in a message buffer that is not polled. -/
theorem waits_setRam {m' : Memory} {n : Nat} (hl : ∀ inst, MbLayout (t inst)) (hpoll : ¬ p.Polls inst mb)
    (hmb : mb < maxMbNum) (hn : n ≤ 8 + mbRoom (t inst) mb)
    (hsame : SameOutside (s.ram inst) m' (mbRegion (t inst) mb) n) (i m : UInt8) (f : CanFrame) (hp : p.Polls i m)
    (h : Waits (t i) (s.ram i) m f) : Waits (t i) ((s.setRam inst m').ram i) m f := by
  show Waits (t i) (if i = inst then m' else s.ram i) m f
  split
  · next heq =>
    subst heq
    exact h.of_sameOutside (hl i) hmb (fun hne => hpoll (hne ▸ hp)) hn hsame
  · exact h

/-! ## Reading -/

theorem handler_mirrors {f : CanFrame} (h : Mirrors t p s a) (hpoll : p.Polls inst mb)
    (hav : a.available inst mb = some f) :
    (s.flexcanIrqHandlerRxMb t inst mb).2 = [.rx (flexcanIrqHandlerRxMb a inst mb f).2] ∧
      Mirrors t p (s.flexcanIrqHandlerRxMb t inst mb).1 (flexcanIrqHandlerRxMb a inst mb f).1 := by
  have hread := getMsgBuff_waits (h.frame inst mb f hpoll hav)
  have hmb : s.rx.mbs inst mb = a.mbs inst mb := h.same.mbs inst mb hpoll
  obtain ⟨a', sent, heq, heff⟩ := handlerEffect a inst mb f
  have hrx : SameRx p (s.readMsgBuff t inst mb) (readMsgBuff a inst mb f) := by
    unfold CanNode.readMsgBuff readMsgBuff
    simp only
    rw [hread, hmb, h.same.deref]
    exact ((h.same.store _ _).setAvailable inst mb none).setMb inst mb _
  obtain ⟨hsent, hcall⟩ := hrx.callback hpoll
  have hend := hcall.disableAfterCallback hpoll ((readMsgBuff a inst mb f).mbs inst mb).isPolling
  have hstate : (flexcanIrqHandlerRxMb a inst mb f).1 = a' := congrArg Prod.fst heq
  unfold CanNode.flexcanIrqHandlerRxMb
  simp only [hrx.mbs inst mb hpoll, hsent]
  constructor
  · rw [hread, ofMsgBuff_flexcanGetMsgBuff]
    rfl
  · refine ⟨hend, fun i m hp => ?_, fun i m f' hp hav' => ?_, fun i m hp => ?_⟩
    · rw [hstate, heff.available]
      show (if i = inst ∧ m = mb then false else s.iflag i m) =
        (if i = inst ∧ m = mb then none else a.available i m).isSome
      split
      · rfl
      · exact h.flag i m hp
    · rw [hstate, heff.available] at hav'
      have hav'' : (if i = inst ∧ m = mb then none else a.available i m) = some f' := hav'
      split at hav''
      · cases hav''
      · exact h.frame i m f' hp hav''
    · rw [hstate]
      by_cases heqm : i = inst ∧ m = mb
      · obtain ⟨rfl, rfl⟩ := heqm
        rcases heff.mailbox with hidle | harmed
        · rw [hidle]
          nofun
        · rw [harmed]
          nofun
      · rw [heff.others i m heqm]
        exact h.receiving i m hp

theorem mainFunctionRead_mirrors (h : Mirrors t p s a) (hpoll : p.Polls inst mb) :
    (s.flexcanIpMainFunctionRead t inst mb).2 = (flexcanIpMainFunctionRead a inst mb).2.map CanEvent.rx ∧
      Mirrors t p (s.flexcanIpMainFunctionRead t inst mb).1 (flexcanIpMainFunctionRead a inst mb).1 := by
  have hflag := h.flag inst mb hpoll
  unfold CanNode.flexcanIpMainFunctionRead flexcanIpMainFunctionRead
  rw [hflag, h.same.mbs inst mb hpoll]
  cases hav : a.available inst mb with
  | none => exact ⟨rfl, h⟩
  | some f =>
    simp only [Option.isSome_some, if_true]
    split
    · exact handler_mirrors h hpoll hav
    · exact ⟨rfl, h⟩

theorem poll_mirrors (h : Mirrors t p s a) :
    (s.poll t p).2 = (poll p a).2.map CanEvent.rx ∧ Mirrors t p (s.poll t p).1 (poll p a).1 := by
  have hnext : a.next = s.rx.next := by rw [h.same.rest]
  unfold CanNode.poll poll
  rw [hnext]
  cases hpos : p.pollOrder[s.rx.next]? with
  | none => exact ⟨rfl, h⟩
  | some r =>
    obtain ⟨inst, i⟩ := r
    have hpoll : p.Polls inst (p.mb inst i) := ⟨i, List.mem_of_getElem? hpos, rfl⟩
    refine mainFunctionRead_mirrors (s := { s with rx := { s.rx with next := _ } }) ⟨⟨h.same.mbs, ?_⟩, h.flag, h.frame,
      h.receiving⟩ hpoll
    rw [h.same.rest]

theorem receive_mirrors (h : Mirrors t p s a) :
    s.queueReceive.2 = (queueReceive a).2.map CanEvent.rx ∧ Mirrors t p s.queueReceive.1 (queueReceive a).1 := by
  have hqueue : a.xQueueCan = s.rx.xQueueCan := by rw [h.same.rest]
  unfold CanNode.queueReceive queueReceive
  rw [hqueue]
  constructor
  · rw [List.map_map]
    rfl
  · refine ⟨⟨h.same.mbs, ?_⟩, h.flag, h.frame, h.receiving⟩
    rw [h.same.rest]

/-- A frame comes in; one that waited is lost. -/
theorem arrive_mirrors {f : CanFrame} {ram : Memory} (hl : ∀ inst, MbLayout (t inst)) (h : Mirrors t p s a)
    (hpoll : p.Polls inst mb) (hmb : mb < maxMbNum)
    (hf : Delivers (s.ram inst) (mbRegion (t inst) mb) (mbRoom (t inst) mb) f ram) :
    (s.frameArrives t inst mb f ram).2 = (frameArrives a inst mb f).2.map CanEvent.rx ∧
      Mirrors t p (s.frameArrives t inst mb f ram).1 (frameArrives a inst mb f).1 := by
  have hflag := h.flag inst mb hpoll
  unfold CanNode.frameArrives frameArrives
  simp only
  constructor
  · rw [hflag]
    cases hav : a.available inst mb with
    | none => rfl
    | some f' =>
      rw [getMsgBuff_waits (h.frame inst mb f' hpoll hav), ofMsgBuff_flexcanGetMsgBuff]
      rfl
  · refine ⟨h.same.setAvailable inst mb _, fun i m hp => ?_, fun i m f' hp hav => ?_, h.receiving⟩
    · show (if i = inst ∧ m = mb then true else s.iflag i m) =
        (if i = inst ∧ m = mb then some f else a.available i m).isSome
      split
      · rfl
      · exact h.flag i m hp
    · have hav' : (if i = inst ∧ m = mb then some f else a.available i m) = some f' := hav
      show Waits (t i) (if i = inst then ram else s.ram i) m f'
      split at hav'
      · next heq =>
        obtain ⟨rfl, rfl⟩ := heq
        obtain rfl := Option.some.inj hav'
        rw [if_pos rfl]
        exact ⟨hf.id, hf.data, hf.prio, hf.fits, hmb⟩
      · next hne =>
        have hold := h.frame i m f' hp hav'
        split
        · next heq =>
          subst heq
          exact hold.of_sameOutside (hl i) hmb (fun hm => hne ⟨rfl, hm.symm⟩) (Nat.le_refl _) hf.others
        · exact hold

/-! ## Sending, seen from the receive side -/

/-- A length for which there is room passes the assertion. -/
theorem assert_of_le {x : UInt32} {p : UInt8} (h : x.toNat ≤ p.toNat) : x.toUInt8 ≤ p := by
  rw [UInt8.le_iff_toNat_le, UInt32.toNat_toUInt8]
  exact Nat.le_trans (Nat.mod_le _ _) h

/-- What `FlexCAN_Ip_Send` changes when it takes the request. -/
structure SendEffect (t : UInt8 → FlexcanType) (s : CanNode) (inst mb : UInt8) (info : DataInfo) (msgId : UInt32)
    (mbData : Option (List UInt8)) (s' : CanNode) : Prop where
  range : flexcanIsMbOutOfRange mb = false
  idle : (s.rx.mbs inst mb).state = .idle
  iflag : s'.iflag = (s.setFlag inst mb false).iflag
  mbs : s'.rx.mbs = (s.setBusy inst mb info).rx.mbs
  rest : s'.rx = { s.rx with mbs := s'.rx.mbs, imask := s'.rx.imask }
  ram : s'.ram = (s.setRam inst (flexcanSetTxMsgBuff (s.ram inst) (mbRegion (t inst) mb) info.codeStatus msgId mbData
    false)).ram

section Requests

variable {info : DataInfo} {msgId : UInt32} {mbData : Option (List UInt8)}

/-- A call of `FlexCAN_Ip_Send` is refused or has its effect. -/
theorem send_cases (s : CanNode) (msgId : UInt32) (mbData : Option (List UInt8))
    (hassert : info.dataLength.toUInt8 ≤ flexcanGetMbPayloadSize (t inst) mb.toUInt32) :
    (∃ result, s.flexcanIpSend t inst mb info msgId mbData = some (result, s) ∧ result ≠ .success ∧
      (flexcanIsMbOutOfRange mb = true ∨ (s.rx.mbs inst mb).state ≠ .idle)) ∨
    ∃ s', s.flexcanIpSend t inst mb info msgId mbData = some (.success, s') ∧
      SendEffect t s inst mb info msgId mbData s' := by
  unfold CanNode.flexcanIpSend CanNode.flexcanStartSendData
  rw [if_pos hassert]
  by_cases hrange : flexcanIsMbOutOfRange mb = true
  · rw [if_pos hrange]
    exact Or.inl ⟨.buffOutOfRange, rfl, by decide, Or.inl hrange⟩
  · rw [if_neg hrange]
    have hin : flexcanIsMbOutOfRange mb = false := Bool.eq_false_iff.2 hrange
    by_cases hidle : (s.rx.mbs inst mb).state = .idle
    · rw [if_neg (not_not.2 hidle)]
      simp only [Option.map_some, true_and]
      split
      · exact Or.inr ⟨_, rfl, hin, hidle, rfl, rfl, rfl, rfl⟩
      · exact Or.inr ⟨_, rfl, hin, hidle, rfl, rfl, rfl, rfl⟩
    · rw [if_pos hidle]
      exact Or.inl ⟨.busy, rfl, by decide, Or.inr hidle⟩

/-- A request stays in its message buffer. -/
theorem SendEffect.sameOutside {s' : CanNode} {bs : List UInt8} (he : SendEffect t s inst mb info msgId (some bs) s')
    (hl : ∀ inst, MbLayout (t inst)) (hfits : info.dataLength.toNat ≤ mbRoom (t inst) mb) :
    mb < maxMbNum ∧ SameOutside (s.ram inst)
      (flexcanSetTxMsgBuff (s.ram inst) (mbRegion (t inst) mb) info.codeStatus msgId (some bs) false)
      (mbRegion (t inst) mb) (8 + mbRoom (t inst) mb) := by
  have hmb : mb < maxMbNum := UInt8.not_le.1 (of_decide_eq_false he.range)
  exact ⟨hmb, sameOutside_setTxMsgBuff hfits ((hl inst).room mb hmb) ((hl inst).fit mb hmb)⟩

theorem send_mirrors {s' : CanNode} {bs : List UInt8} (hl : ∀ inst, MbLayout (t inst)) (h : Mirrors t p s a)
    (hpoll : ¬ p.Polls inst mb) (hfits : info.dataLength.toNat ≤ mbRoom (t inst) mb)
    (he : SendEffect t s inst mb info msgId (some bs) s') : Mirrors t p s' a := by
  obtain ⟨hmb, hsame⟩ := he.sameOutside hl hfits
  refine h.of_other hpoll ?_ (fun i m hne => ?_) fun i m f hp hw => ?_
  · have hbusy := h.same.setMb_left hpoll { s.rx.mbs inst mb with state := .txBusy, isPolling := info.isPolling }
    refine ⟨fun i m hp => ?_, ?_⟩
    · rw [he.mbs]
      exact hbusy.mbs i m hp
    · rw [he.rest, h.same.rest]
  · rw [he.iflag]
    exact if_neg hne
  · rw [he.ram]
    exact waits_setRam hl hpoll hmb (Nat.le_refl _) hsame i m f hp hw

end Requests

/-- What `FlexCAN_Ip_MainFunctionWrite` does. -/
theorem mainFunctionWrite_cases (t : UInt8 → FlexcanType) (s : CanNode) (inst mb : UInt8) :
    (s.flexcanIpMainFunctionWrite t inst mb = (s, []) ∧
      (s.iflag inst mb = false ∨ (s.rx.mbs inst mb).state ≠ .txBusy)) ∨
    ∃ s', s.flexcanIpMainFunctionWrite t inst mb = (s', [.txComplete inst mb]) ∧ s.iflag inst mb = true ∧
      (s.rx.mbs inst mb).state = .txBusy ∧ s'.rx = s.rx.setMb inst mb { s.rx.mbs inst mb with state := .idle } ∧
      s'.ram = s.ram ∧ (s'.iflag = s.iflag ∨ s'.iflag = (s.setFlag inst mb false).iflag) := by
  unfold CanNode.flexcanIpMainFunctionWrite
  by_cases hflag : s.iflag inst mb = true
  · rw [if_pos hflag]
    by_cases hbusy : (s.rx.mbs inst mb).state = .txBusy
    · simp only [if_pos hbusy]
      refine Or.inr ⟨_, rfl, hflag, hbusy, ?_⟩
      by_cases hremote : s.isRemote inst mb = true
      · rw [if_pos hremote]
        split
        · exact ⟨rfl, rfl, Or.inr rfl⟩
        · exact ⟨rfl, rfl, Or.inl rfl⟩
      · rw [if_neg hremote]
        exact ⟨rfl, rfl, Or.inr rfl⟩
    · exact Or.inl ⟨if_neg hbusy, Or.inr hbusy⟩
  · rw [if_neg hflag]
    exact Or.inl ⟨rfl, Or.inl (Bool.eq_false_iff.2 hflag)⟩

theorem mainFunctionWrite_mirrors (h : Mirrors t p s a) (inst mb : UInt8) :
    Mirrors t p (s.flexcanIpMainFunctionWrite t inst mb).1 a ∧
      (s.flexcanIpMainFunctionWrite t inst mb).2.filterMap CanEvent.rxEvent = [] := by
  rcases mainFunctionWrite_cases t s inst mb with ⟨heq, -⟩ | ⟨s', heq, -, hbusy, hrx, hram, hflag⟩
  · rw [heq]
    exact ⟨h, rfl⟩
  · have hpoll : ¬ p.Polls inst mb := fun hp => h.receiving inst mb hp (by rw [← h.same.mbs inst mb hp]; exact hbusy)
    rw [heq]
    refine ⟨h.of_other hpoll ?_ (fun i m hne => ?_) fun i m f hp hw => ?_, rfl⟩
    · rw [hrx]
      exact h.same.setMb_left hpoll _
    · rcases hflag with hflag | hflag
      · rw [hflag]
      · rw [hflag]
        exact if_neg hne
    · rw [hram]
      exact hw

theorem transmit_mirrors {ram : Memory} (hl : ∀ inst, MbLayout (t inst)) (h : Mirrors t p s a)
    (hpoll : ¬ p.Polls inst mb) (hmb : mb < maxMbNum) (hsends : Sends (s.ram inst) (mbRegion (t inst) mb) ram) :
    Mirrors t p (s.frameSent t inst mb ram).1 a :=
  h.of_other hpoll h.same (fun _ _ hne => if_neg hne) fun i m f hp hw =>
    waits_setRam hl hpoll hmb (by omega) hsends.others i m f hp hw

/-! ## Steps and runs -/

theorem step_mirrors {i : CanInput} {s₁ : CanNode} {es : List CanEvent} (hl : ∀ inst, MbLayout (t inst))
    (h : Mirrors t p s a) (hC : i.Proper t p s) (hs : (canNode t p).step s i = some (s₁, es)) :
    ∃ a₁, (canReceivePollingTask p).run a i.rxInput.toList = some (a₁, es.filterMap CanEvent.rxEvent) ∧
      Mirrors t p s₁ a₁ := by
  have hone : ∀ {j : RxInput} {r : CanNode × List CanEvent} {r' : RxState × List RxEvent},
      (canReceivePollingTask p).step a j = some r' → r.2 = r'.2.map CanEvent.rx ∧ Mirrors t p r.1 r'.1 →
      some r = some (s₁, es) → ∃ a₁, (canReceivePollingTask p).run a [j] = some (a₁, es.filterMap CanEvent.rxEvent) ∧
        Mirrors t p s₁ a₁ := by
    rintro j r r' hstep ⟨hev, hm⟩ heq
    obtain rfl := Option.some.inj heq
    obtain rfl : es = r'.2.map CanEvent.rx := hev
    rw [filterMap_rx]
    exact ⟨r'.1, (canReceivePollingTask p).run_singleton hstep, hm⟩
  cases i with
  | arrive inst mb f ram => exact hone rfl (arrive_mirrors hl h hC.1 hC.2.1 hC.2.2) hs
  | poll => exact hone rfl (poll_mirrors h) hs
  | receive => exact hone rfl (receive_mirrors h) hs
  | send inst mb info msgId mbData =>
    obtain ⟨hpoll, hfits, bs, rfl, -⟩ := hC
    have hstep : (s.flexcanIpSend t inst mb info msgId (some bs)).map
        (fun r => (r.2, [CanEvent.send inst mb info msgId (some bs) r.1])) = some (s₁, es) := hs
    rcases send_cases s msgId (some bs) (assert_of_le hfits) with ⟨result, heq, -, -⟩ | ⟨s', heq, heff⟩
    · rw [heq] at hstep
      obtain ⟨rfl, rfl⟩ := Prod.mk.inj (Option.some.inj hstep)
      exact ⟨a, rfl, h⟩
    · rw [heq] at hstep
      obtain ⟨rfl, rfl⟩ := Prod.mk.inj (Option.some.inj hstep)
      exact ⟨a, rfl, send_mirrors hl h hpoll hfits heff⟩
  | mainFunctionWrite inst mb =>
    have hw := mainFunctionWrite_mirrors h inst mb
    have hr : s.flexcanIpMainFunctionWrite t inst mb = (s₁, es) := Option.some.inj hs
    rw [hr] at hw
    exact ⟨a, by rw [hw.2]; rfl, hw.1⟩
  | transmit inst mb ram =>
    obtain ⟨rfl, rfl⟩ := Prod.mk.inj (Option.some.inj hs)
    exact ⟨a, rfl, transmit_mirrors hl h hC.1 hC.2.1 hC.2.2.2⟩

/-- A step that is asked for properly comes back. -/
theorem step_exists {i : CanInput} (hC : i.Proper t p s) : ∃ s₁ es, (canNode t p).step s i = some (s₁, es) := by
  cases i with
  | send inst mb info msgId mbData =>
    obtain ⟨-, hfits, -⟩ := hC
    rcases send_cases s msgId mbData (assert_of_le hfits) with ⟨result, heq, -, -⟩ | ⟨s', heq, -⟩
    · exact ⟨s, [.send inst mb info msgId mbData result], by simp only [canNode, heq, Option.map_some]⟩
    · exact ⟨s', [.send inst mb info msgId mbData .success], by simp only [canNode, heq, Option.map_some]⟩
  | _ => exact ⟨_, _, rfl⟩

/-- The initialisation loop asks for no sending. -/
theorem state_start (p : CanRxTaskParam) (handlerData : FlexcanIpMsgBuff) (capacity : Nat) (inst mb : UInt8) :
    ((RxState.start p handlerData capacity).mbs inst mb).state ≠ .txBusy := by
  unfold RxState.start
  refine List.foldlRecOn (motive := fun s : RxState => (s.mbs inst mb).state ≠ .txBusy) p.pollOrder _ nofun
    fun s h r _ => ?_
  unfold armShadow
  rw [flexcanIpReceive_polling]
  split
  · show (if inst = r.1 ∧ mb = p.mb r.1 r.2 then _ else s.mbs inst mb).state ≠ .txBusy
    split
    · nofun
    · exact h
  · exact h

theorem mirrors_start (p : CanRxTaskParam) (handlerData : FlexcanIpMsgBuff) (capacity : Nat) (ram : UInt8 → Memory) :
    Mirrors t p (.start p handlerData capacity ram) (.start p handlerData capacity) := by
  have hrest := (armed_start p handlerData capacity).rest
  have hav : (RxState.start p handlerData capacity).available = fun _ _ => none := by rw [hrest]; rfl
  refine ⟨⟨fun _ _ _ => rfl, rfl⟩, fun inst mb _ => ?_, fun inst mb f _ hf => ?_, fun inst mb _ => ?_⟩
  · rw [hav]
    rfl
  · rw [hav] at hf
    cases hf
  · exact state_start p handlerData capacity inst mb

end Simulation

/-- **Receiving from the RAM** is receiving the frames that come in. -/
theorem node_receives_frames {t : UInt8 → FlexcanType} {p : CanRxTaskParam} {m ram : UInt8 → Memory}
    {handlerData : FlexcanIpMsgBuff} {capacity : Nat} {is : List CanInput} (hspace : ∀ inst, (t inst).InSpace)
    (hinit : ∀ inst, flexcanInitSkku (t inst) inst (m inst) = some (ram inst))
    (hC : (canNode t p).AllSteps (CanInput.Proper t p) (.start p handlerData capacity ram) is) :
    ∃ s tr a, (canNode t p).run (.start p handlerData capacity ram) is = some (s, tr) ∧
      (canReceivePollingTask p).run (.start p handlerData capacity) (is.filterMap CanInput.rxInput) =
        some (a, tr.filterMap CanEvent.rxEvent) ∧
      s.rx.rxShadow = a.rxShadow ∧ s.rx.rxData = a.rxData ∧ s.rx.handlerData = a.handlerData ∧
      s.rx.xQueueCan = a.xQueueCan ∧ s.rx.canStats = a.canStats := by
  have hl : ∀ inst, MbLayout (t inst) := fun inst => (init_spec (hspace inst) (hinit inst)).1
  obtain ⟨s, tr, hrun, -⟩ := @Machine.run_exists _ _ _ (canNode t p) _ (fun _ _ => True)
    (fun s _ i _ hi => (step_exists hi).imp fun s₁ => Exists.imp fun es hs => ⟨hs, trivial⟩) _ _ [] trivial hC
  obtain ⟨a, hrun', hm⟩ := (canNode t p).run_project (canReceivePollingTask p) (Mirrors t p) CanInput.rxInput
    CanEvent.rxEvent (fun s a i s₁ es h hi hs => step_mirrors hl h hi hs)
    (mirrors_start p handlerData capacity ram) hC hrun
  refine ⟨s, tr, a, hrun, hrun', ?_⟩
  rw [hm.same.rest]
  exact ⟨rfl, rfl, rfl, rfl, rfl⟩

/-- A frame of 64 bytes comes in and is polled. -/
theorem node_receives_one :
    ∃ s tr a, (canNode (fun _ => controller64) rxp).run (.start rxp .zero 64 ram64)
        [.arrive 0 0 (receivedFrame txInfo.codeStatus 1 (List.replicate 64 7) (by decide))
          (flexcanSetTxMsgBuff (ram64 0) (mbRegion controller64 0) txInfo.codeStatus 1 (some (List.replicate 64 7)) false),
          .poll, .receive] = some (s, tr) ∧
      (canReceivePollingTask rxp).run (.start rxp .zero 64)
        [.arrive 0 0 (receivedFrame txInfo.codeStatus 1 (List.replicate 64 7) (by decide)), .poll, .receive] =
        some (a, tr.filterMap CanEvent.rxEvent) ∧
      s.rx.rxShadow = a.rxShadow ∧ s.rx.rxData = a.rxData ∧ s.rx.handlerData = a.handlerData ∧
      s.rx.xQueueCan = a.xQueueCan ∧ s.rx.canStats = a.canStats :=
  node_receives_frames (t := fun _ => controller64) (m := fun _ _ => 0) (fun _ => controller64_inSpace) init_ram64
    ⟨⟨⟨0, by decide, rfl⟩, by decide, delivers_setTxMsgBuff 1 false rfl (by decide) (by decide) (by decide) (by decide)
      (Or.inl rfl)⟩, fun _ _ _ => ⟨trivial, fun _ _ _ => ⟨trivial, fun _ _ _ => trivial⟩⟩⟩

end CanTsn
