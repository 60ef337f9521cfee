import CanTsnGateway.Model.FlexCan

/-!
# What one read of a mailbox does

The handler's whole effect (`handlerEffect`): the frame goes to where the mailbox points,
`rxData` goes to the queue, the mailbox points to `rxData` afterwards or stays idle, and
no other mailbox changes.
-/

namespace CanTsn

/-- Nothing but mailbox `mb` of `inst` and the interrupt masks has changed. -/
structure OnlyMb (inst mb : UInt8) (s s' : RxState) : Prop where
  others : ∀ i m, ¬(i = inst ∧ m = mb) → s'.mbs i m = s.mbs i m
  rest : s' = { s with mbs := s'.mbs, imask := s'.imask }

namespace OnlyMb

variable {inst mb : UInt8} {s s₁ s₂ : RxState}

theorem refl (inst mb : UInt8) (s : RxState) : OnlyMb inst mb s s := ⟨fun _ _ _ => rfl, rfl⟩

theorem trans (h : OnlyMb inst mb s s₁) (h' : OnlyMb inst mb s₁ s₂) : OnlyMb inst mb s s₂ := by
  refine ⟨fun i m hne => (h'.others i m hne).trans (h.others i m hne), ?_⟩
  rw [h'.rest, h.rest]

theorem setMb (inst mb : UInt8) (s : RxState) (h : FlexcanIpMbHandle) :
    OnlyMb inst mb s (s.setMb inst mb h) := ⟨fun _ _ hne => if_neg hne, rfl⟩

theorem setMsgBuffIntCmd (inst mb : UInt8) (s : RxState) (enable : Bool) :
    OnlyMb inst mb s (flexcanSetMsgBuffIntCmd s inst mb enable) := ⟨fun _ _ _ => rfl, rfl⟩

end OnlyMb

@[simp] theorem mbs_setMb (s : RxState) (inst mb : UInt8) (h : FlexcanIpMbHandle) :
    (s.setMb inst mb h).mbs inst mb = h := if_pos ⟨rfl, rfl⟩

/-- Arming a mailbox for polling. -/
theorem flexcanIpReceive_polling (s : RxState) (inst mb : UInt8) (data : MsgBuffPtr) :
    (flexcanIpReceive s inst mb data true).2 =
      if flexcanIsMbOutOfRange mb = false ∧ (s.mbs inst mb).state = .idle then
        s.setMb inst mb ⟨some data, .rxBusy, true⟩
      else s := by
  unfold flexcanIpReceive flexcanStartRxMessageBufferData
  cases flexcanIsMbOutOfRange mb with
  | true => rfl
  | false =>
    by_cases hidle : (s.mbs inst mb).state = .idle
    · simp [hidle]
    · simp [hidle]

theorem onlyMb_receive (s : RxState) (inst mb : UInt8) (data : MsgBuffPtr) :
    OnlyMb inst mb s (flexcanIpReceive s inst mb data true).2 := by
  rw [flexcanIpReceive_polling]
  split
  · exact .setMb inst mb s _
  · exact .refl inst mb s

/-- The callback's call of the driver, for the instance it is called with. -/
def rearm (s : RxState) (inst mb : UInt8) : RxState :=
  if inst = 0 ∨ inst = 1 then (flexcanIpReceive s inst mb .rxData true).2 else s

theorem can0CallbackSkku_eq (s : RxState) (inst mb : UInt8) :
    can0CallbackSkku s inst mb =
      let r := countAndSend s.canStats s.xQueueCan s.rxData
      (⟨s.rxData, r.1⟩, { rearm s inst mb with canStats := r.2.1, xQueueCan := r.2.2 }) := by
  have hrest : ∀ i, (flexcanIpReceive s i mb .rxData true).2 =
      { s with mbs := (flexcanIpReceive s i mb .rxData true).2.mbs,
               imask := (flexcanIpReceive s i mb .rxData true).2.imask } :=
    fun i => (onlyMb_receive s i mb .rxData).rest
  unfold can0CallbackSkku rearm
  by_cases h0 : inst = 0
  · subst h0
    simp only [if_true, true_or]
    rw [hrest 0]
  · by_cases h1 : inst = 1
    · subst h1
      simp only [if_true, or_true, h0, if_false]
      rw [hrest 1]
    · simp only [h0, h1, if_false, or_self]

/-- An armed mailbox is idle afterwards or points to `rxData`. -/
theorem rearm_mb {s : RxState} {inst mb : UInt8} (hidle : (s.mbs inst mb).state = .idle) :
    ((rearm s inst mb).mbs inst mb).state = .idle ∨
      (rearm s inst mb).mbs inst mb = ⟨some .rxData, .rxBusy, true⟩ := by
  unfold rearm
  split
  · rw [flexcanIpReceive_polling]
    split
    · exact .inr (mbs_setMb s inst mb _)
    · exact .inl hidle
  · exact .inl hidle

theorem onlyMb_rearm (s : RxState) (inst mb : UInt8) : OnlyMb inst mb s (rearm s inst mb) := by
  unfold rearm
  split
  · exact onlyMb_receive s inst mb .rxData
  · exact .refl inst mb s

theorem onlyMb_disableAfterCallback (s : RxState) (inst mb : UInt8) (bCurrentIntStat : Bool) :
    OnlyMb inst mb s (disableAfterCallback s inst mb bCurrentIntStat) := by
  unfold disableAfterCallback
  simp only
  split
  · exact (OnlyMb.setMb inst mb s _).trans (.setMsgBuffIntCmd inst mb _ false)
  · split
    · exact .setMsgBuffIntCmd inst mb s false
    · exact .refl inst mb s

/-- A mailbox armed for polling stays as it is; no mailbox changes its state. -/
theorem disableAfterCallback_mb (s : RxState) (inst mb : UInt8) (bCurrentIntStat : Bool) :
    ((s.mbs inst mb).state = .rxBusy →
      (disableAfterCallback s inst mb bCurrentIntStat).mbs inst mb = s.mbs inst mb) ∧
    ((disableAfterCallback s inst mb bCurrentIntStat).mbs inst mb).state = (s.mbs inst mb).state := by
  unfold disableAfterCallback
  simp only
  split
  · next h =>
    refine ⟨fun hbusy => ?_, ?_⟩
    · rw [h.1] at hbusy
      cases hbusy
    · show ((s.setMb inst mb _).mbs inst mb).state = _
      rw [mbs_setMb]
  · split
    · exact ⟨fun _ => rfl, rfl⟩
    · exact ⟨fun _ => rfl, rfl⟩

/-- The store through the mailbox's pointer reaches `rxData` only if it points there. -/
theorem rxData_readMsgBuff (s : RxState) (inst mb : UInt8) (f : CanFrame) :
    (readMsgBuff s inst mb f).rxData =
      if (s.mbs inst mb).pMBmessage = some .rxData then flexcanGetMsgBuff s.rxData f else s.rxData := by
  show (s.store ((s.mbs inst mb).pMBmessage.getD .handlerData) _).rxData = _
  cases (s.mbs inst mb).pMBmessage with
  | none => rfl
  | some p => cases p <;> rfl

theorem store_eq (s : RxState) (p : MsgBuffPtr) (m : FlexcanIpMsgBuff) :
    ∃ shadow rxData handlerData, s.store p m =
      { s with rxShadow := shadow, rxData := rxData, handlerData := handlerData } := by
  cases p with
  | rxShadow i => exact ⟨_, s.rxData, s.handlerData, rfl⟩
  | rxData => exact ⟨s.rxShadow, m, s.handlerData, rfl⟩
  | handlerData => exact ⟨s.rxShadow, s.rxData, m, rfl⟩

/-- The read as an update of buffers, flag and mailbox. -/
theorem readMsgBuff_eq (s : RxState) (inst mb : UInt8) (f : CanFrame) :
    ∃ shadow rxData handlerData h, h.state = .idle ∧ readMsgBuff s inst mb f =
      (({ s with rxShadow := shadow, rxData := rxData, handlerData := handlerData } : RxState).setAvailable
        inst mb none).setMb inst mb h := by
  obtain ⟨shadow, rxData, handlerData, hs⟩ :=
    store_eq s ((s.mbs inst mb).pMBmessage.getD .handlerData)
      (flexcanGetMsgBuff (s.deref ((s.mbs inst mb).pMBmessage.getD .handlerData)) f)
  refine ⟨shadow, rxData, handlerData, ⟨some ((s.mbs inst mb).pMBmessage.getD .handlerData), .idle,
    (s.mbs inst mb).isPolling⟩, rfl, ?_⟩
  unfold readMsgBuff
  simp only
  rw [hs]

/-- What a read of `f` from a mailbox does to the state, with the message it sends. -/
structure HandlerEffect (s : RxState) (inst mb : UInt8) (f : CanFrame) (s' : RxState)
    (sent : QueueSend) : Prop where
  others : ∀ i m, ¬(i = inst ∧ m = mb) → s'.mbs i m = s.mbs i m
  mailbox : (s'.mbs inst mb).state = .idle ∨ s'.mbs inst mb = ⟨some .rxData, .rxBusy, true⟩
  rxData : s'.rxData =
    if (s.mbs inst mb).pMBmessage = some .rxData then flexcanGetMsgBuff s.rxData f else s.rxData
  item : sent.item = s'.rxData
  queue : (sent.accepted, s'.canStats, s'.xQueueCan) =
    countAndSend s.canStats s.xQueueCan s'.rxData
  available : s'.available = (s.setAvailable inst mb none).available

theorem handlerEffect (s : RxState) (inst mb : UInt8) (f : CanFrame) :
    ∃ s' sent, flexcanIrqHandlerRxMb s inst mb f = (s', .rxComplete inst mb f sent) ∧
      HandlerEffect s inst mb f s' sent := by
  have hrx := rxData_readMsgBuff s inst mb f
  obtain ⟨shadow, rxData, handlerData, h, hidle, hread⟩ := readMsgBuff_eq s inst mb f
  unfold flexcanIrqHandlerRxMb
  simp only [can0CallbackSkku_eq]
  have hstats : (readMsgBuff s inst mb f).canStats = s.canStats := by rw [hread]; rfl
  have hqueue : (readMsgBuff s inst mb f).xQueueCan = s.xQueueCan := by rw [hread]; rfl
  have havail : (readMsgBuff s inst mb f).available = (s.setAvailable inst mb none).available := by
    rw [hread]; rfl
  have hothers : ∀ i m, ¬(i = inst ∧ m = mb) → (readMsgBuff s inst mb f).mbs i m = s.mbs i m := by
    intro i m hne
    rw [hread]
    exact if_neg hne
  have hstate : ((readMsgBuff s inst mb f).mbs inst mb).state = .idle := by
    rw [hread, mbs_setMb]
    exact hidle
  rw [hstats, hqueue]
  generalize readMsgBuff s inst mb f = s₁ at hrx hothers havail hstate ⊢
  generalize (s₁.mbs inst mb).isPolling = bCurrentIntStat
  -- the state in which the callback returns
  generalize hs₂ : ({ rearm s₁ inst mb with
    canStats := (countAndSend s.canStats s.xQueueCan s₁.rxData).2.1,
    xQueueCan := (countAndSend s.canStats s.xQueueCan s₁.rxData).2.2 } : RxState) = s₂
  have harm := onlyMb_rearm s₁ inst mb
  have hdis := onlyMb_disableAfterCallback s₂ inst mb bCurrentIntStat
  obtain ⟨hkeep, hst⟩ := disableAfterCallback_mb s₂ inst mb bCurrentIntStat
  have hmbs : s₂.mbs = (rearm s₁ inst mb).mbs := by rw [← hs₂]
  have hdata : (disableAfterCallback s₂ inst mb bCurrentIntStat).rxData = s₁.rxData := by
    rw [hdis.rest, ← hs₂]
    show (rearm s₁ inst mb).rxData = s₁.rxData
    rw [harm.rest]
  refine ⟨_, _, rfl, ?_, ?_, hdata.trans hrx, hdata.symm, ?_, ?_⟩
  · intro i m hne
    rw [hdis.others i m hne, hmbs, harm.others i m hne, hothers i m hne]
  · rcases rearm_mb hstate with hid | harmed
    · exact .inl (by rw [hst, hmbs]; exact hid)
    · have h2 : s₂.mbs inst mb = ⟨some .rxData, .rxBusy, true⟩ := by rw [hmbs]; exact harmed
      exact .inr (by rw [hkeep (by rw [h2]), h2])
  · rw [hdata, hdis.rest, ← hs₂]
  · rw [hdis.rest, ← hs₂, ← havail]
    show (rearm s₁ inst mb).available = s₁.available
    rw [harm.rest]

/-! ## The mailbox after a read -/

theorem state_readMsgBuff (s : RxState) (inst mb : UInt8) (f : CanFrame) :
    ((readMsgBuff s inst mb f).mbs inst mb).state = .idle := by
  unfold readMsgBuff
  simp only [mbs_setMb]

/-- The callback's re-arming succeeds: the mailbox is idle when it is called. -/
theorem rearm_of_idle {s : RxState} {inst mb : UInt8} (hinst : inst = 0 ∨ inst = 1) (hmb : mb < maxMbNum)
    (hidle : (s.mbs inst mb).state = .idle) :
    (rearm s inst mb).mbs inst mb = ⟨some .rxData, .rxBusy, true⟩ := by
  have hrange : flexcanIsMbOutOfRange mb = false := decide_eq_false (UInt8.not_le.2 hmb)
  unfold rearm
  rw [if_pos hinst, flexcanIpReceive_polling, if_pos ⟨hrange, hidle⟩, mbs_setMb]

/-- **A read leaves its mailbox armed** for the next frame. -/
theorem mbs_flexcanIrqHandlerRxMb (s : RxState) {inst mb : UInt8} (f : CanFrame) (hinst : inst = 0 ∨ inst = 1)
    (hmb : mb < maxMbNum) :
    (flexcanIrqHandlerRxMb s inst mb f).1.mbs inst mb = ⟨some .rxData, .rxBusy, true⟩ := by
  have harmed := rearm_of_idle hinst hmb (state_readMsgBuff s inst mb f)
  unfold flexcanIrqHandlerRxMb
  simp only [can0CallbackSkku_eq]
  rw [(disableAfterCallback_mb _ inst mb _).1 (by rw [harmed]), harmed]

/-- The handler does not move the task on. -/
theorem next_flexcanIrqHandlerRxMb (s : RxState) (inst mb : UInt8) (f : CanFrame) :
    (flexcanIrqHandlerRxMb s inst mb f).1.next = s.next := by
  obtain ⟨shadow, rxData, handlerData, h, -, hread⟩ := readMsgBuff_eq s inst mb f
  have hnext : (readMsgBuff s inst mb f).next = s.next := by
    rw [hread]
    rfl
  unfold flexcanIrqHandlerRxMb
  simp only [can0CallbackSkku_eq]
  rw [(onlyMb_disableAfterCallback _ inst mb _).rest]
  show (rearm (readMsgBuff s inst mb f) inst mb).next = s.next
  rw [(onlyMb_rearm _ inst mb).rest]
  exact hnext

/-- A poll of a mailbox finds nothing to read, or reads the frame that waits there. -/
theorem mainFunctionRead_cases (s : RxState) (inst mb : UInt8) :
    (flexcanIpMainFunctionRead s inst mb = (s, []) ∧
      (s.available inst mb = none ∨ (s.mbs inst mb).state ≠ .rxBusy)) ∨
    ∃ f sent, flexcanIpMainFunctionRead s inst mb =
        ((flexcanIrqHandlerRxMb s inst mb f).1, [.rxComplete inst mb f sent]) ∧
      s.available inst mb = some f ∧ (s.mbs inst mb).state = .rxBusy ∧
      HandlerEffect s inst mb f (flexcanIrqHandlerRxMb s inst mb f).1 sent := by
  unfold flexcanIpMainFunctionRead
  cases hav : s.available inst mb with
  | none => exact Or.inl ⟨rfl, Or.inl rfl⟩
  | some f =>
    simp only
    split
    · next hbusy =>
      obtain ⟨s', sent, heq, heff⟩ := handlerEffect s inst mb f
      rw [heq]
      refine Or.inr ⟨f, sent, ?_, rfl, hbusy, ?_⟩
      · rw [heq]
      · rw [heq]
        exact heff
    · next hbusy => exact Or.inl ⟨rfl, Or.inr hbusy⟩

end CanTsn
