import CanTsnGateway.Ethernet.SideSteps

/-!
# Runs of the transmit side

A run is any order of offers, statements of `Eth_Transmit`, interrupts and DMA work.
`Unfilled` rules out the interrupts that come while a descriptor is being filled; every
such run keeps the invariant of each FIFO (`unfilled_run`).  `Calm` also rules out the ones
that find the list about to be linked to and all of it sent; such a run loses no request
(`calm_run`).
-/

namespace CanTsn

open ByteMemory StepMachine

/-- The DMA has a descriptor of this ring. -/
def TxSide.Sending (s : TxSide) (f : UInt8) : Prop := ∃ b ∈ (s.ctrl.tx.ring f).ringDesc, b.Own

/-- The FIFO and the next statement of the `Eth_Transmit` under way. -/
def TxSide.phase (s : TxSide) : Option (UInt8 × TransmitPc) := s.transmit.map fun t => (t.fifoIdx, t.pc)

/-- An `Eth_Transmit` is under way on this FIFO, before one of these statements. -/
def TxSide.At (s : TxSide) (f : UInt8) (ps : List TransmitPc) : Prop := ∃ p ∈ ps, s.phase = some (f, p)

/-- A container fits behind the header. -/
def TxInput.Short : TxInput → Prop
  | .offer _ container => container.length ≤ 1522
  | _ => True

def Unfilled (s : TxSide) (i : TxInput) : Prop :=
  i.Short ∧ ∀ f, i = .txIrq f → ¬ s.At f [.fillLength, .setOwn]

def Calm (s : TxSide) (i : TxInput) : Prop :=
  i.Short ∧ ∀ f, i = .txIrq f → s.At f [.linkTail, .fillLength, .setOwn] → s.Sending f

/-! The conditions are decided by looking at the state. -/

instance (s : TxSide) (f : UInt8) : Decidable (s.Sending f) :=
  inferInstanceAs (Decidable (∃ b ∈ (s.ctrl.tx.ring f).ringDesc, b.Own))

instance (s : TxSide) (f : UInt8) (ps : List TransmitPc) : Decidable (s.At f ps) :=
  inferInstanceAs (Decidable (∃ p ∈ ps, s.phase = some (f, p)))

instance : (i : TxInput) → Decidable i.Short
  | .offer _ container => inferInstanceAs (Decidable (container.length ≤ 1522))
  | .advance | .txIrq _ | .dma _ _ _ => isTrue trivial

instance (P : UInt8 → Prop) [DecidablePred P] : (i : TxInput) → Decidable (∀ f, i = .txIrq f → P f)
  | .txIrq f => decidable_of_iff (P f) ⟨fun h _ hf => TxInput.txIrq.inj hf ▸ h, fun h => h f rfl⟩
  | .offer _ _ | .advance | .dma _ _ _ => isTrue fun _ h => TxInput.noConfusion h

instance (s : TxSide) (i : TxInput) : Decidable (Unfilled s i) :=
  inferInstanceAs (Decidable (i.Short ∧ ∀ f, i = .txIrq f → ¬ s.At f [.fillLength, .setOwn]))

instance (s : TxSide) (i : TxInput) : Decidable (Calm s i) :=
  inferInstanceAs (Decidable
    (i.Short ∧ ∀ f, i = .txIrq f → s.At f [.linkTail, .fillLength, .setOwn] → s.Sending f))

section Side

variable {buffer : UInt8 → UInt32} {low high : UInt32} {s s₁ : TxSide} {tr es : List TxEvent}
  {m : UInt8 → Marks}

/-! ## One step -/

/-- Only FIFO `f` is worked on. -/
structure OnFifo (buffer : UInt8 → UInt32) (f : UInt8) (s s₁ : TxSide) (es : List TxEvent) : Prop where
  views : ∀ g < ethMaxTxFifoSupported, g ≠ f → fifoView buffer s₁ g = fifoView buffer s g
  events : ∀ g, g ≠ f → copies g es = [] ∧ grantedBuffers g es = [] ∧ wireFrames g es = [] ∧ confirmations g es = []

def SideFifos (buffer : UInt8 → UInt32) (low high : UInt32) (s : TxSide) (tr : List TxEvent) (m : UInt8 → Marks) :
    Prop := ∀ f < ethMaxTxFifoSupported, FifoSide buffer low high f (fifoView buffer s f) tr (m f)

theorem SideFifos.on {f : UInt8} {m' : Marks} (h : SideFifos buffer low high s tr m) (hon : OnFifo buffer f s s₁ es)
    (hf : FifoSide buffer low high f (fifoView buffer s₁ f) (tr ++ es) m') :
    SideFifos buffer low high s₁ (tr ++ es) (Function.update m f m') := by
  intro g hg
  by_cases hgf : g = f
  · subst hgf
    rw [Function.update_self]
    exact hf
  · obtain ⟨hcopies, hgranted, hwire, hconf⟩ := hon.events g hgf
    rw [Function.update_of_ne hgf, hon.views g hg hgf]
    exact (h g hg).frame hcopies hgranted hwire hconf

/-- The buffers that the DMA has to send stay as they are. -/
def Untouched (s s₁ : TxSide) : Prop :=
  ∀ f < ethMaxTxFifoSupported, ∀ b ∈ (s.ctrl.tx.ring f).ringDesc, b.Own →
    read s₁.ctrl.memory b.des0 1536 = read s.ctrl.memory b.des0 1536

theorem untouched_of_eq (h : s₁.ctrl.memory = s.ctrl.memory) : Untouched s s₁ := fun _ _ _ _ _ => by rw [h]

/-- What a step leaves behind.  The last clause leaves out the interrupt that finds the
list about to be linked to and all of it sent. -/
structure SideNext (buffer : UInt8 → UInt32) (low high : UInt32) (s : TxSide) (tr : List TxEvent)
    (m : UInt8 → Marks) (i : TxInput) (s₁ : TxSide) (es : List TxEvent) (m₁ : UInt8 → Marks) : Prop where
  side : SideUp low high s₁
  fifos : SideFifos buffer low high s₁ (tr ++ es) m₁
  follows : ∀ f, (m f).Follows (m₁ f)
  keeps : ∀ f, (i = .txIrq f → (fifoView buffer s f).pc = some .linkTail → (m f).dma < (m f).tail) →
    (m f).Keeps (m₁ f)
  returns : ∀ bufIdx lenByte ok, .transmitted bufIdx lenByte ok ∈ es → ok = true
  untouched : Untouched s s₁

theorem follows_update {f : UInt8} {m' : Marks} (h : (m f).Follows m') (g : UInt8) :
    (m g).Follows (Function.update m f m' g) := by
  by_cases hgf : g = f
  · subst hgf
    rw [Function.update_self]
    exact h
  · rw [Function.update_of_ne hgf]
    exact Marks.Follows.refl _

theorem keeps_update {f : UInt8} {m' : Marks} {P : UInt8 → Prop} (h : P f → (m f).Keeps m') (g : UInt8) (hg : P g) :
    (m g).Keeps (Function.update m f m' g) := by
  by_cases hgf : g = f
  · subst hgf
    rw [Function.update_self]
    exact h hg
  · rw [Function.update_of_ne hgf]
    exact Marks.Keeps.refl _

/-- A step that changes nothing. -/
theorem SideNext.refl {i : TxInput} (hup : SideUp low high s) (h : SideFifos buffer low high s tr m)
    (hes : ∀ g, copies g es = [] ∧ grantedBuffers g es = [] ∧ wireFrames g es = [] ∧ confirmations g es = [])
    (hreturns : ∀ bufIdx lenByte ok, .transmitted bufIdx lenByte ok ∉ es) :
    SideNext buffer low high s tr m i s es m :=
  ⟨hup, fun g hg => (h g hg).frame (hes g).1 (hes g).2.1 (hes g).2.2.1 (hes g).2.2.2, fun _ => Marks.Follows.refl _,
    fun _ _ => Marks.Keeps.refl _, fun bufIdx lenByte ok he => absurd he (hreturns bufIdx lenByte ok),
    untouched_of_eq rfl⟩

theorem SideUp.advance {t : Transmitting} (hup : SideUp low high s) (ht : s.transmit = some t)
    (hadv : advanceTransmit s t = some (s₁, es)) : SideUp low high s₁ := by
  obtain ⟨⟨c, next⟩, hstep, heq⟩ := Option.map_eq_some_iff.1 hadv
  obtain ⟨⟨hinit, hactive⟩, ⟨hlow, hhigh⟩, -⟩ := transmitStep_keeps hstep
  have hf := hup.onFifo t ht
  cases next <;> cases heq <;>
    refine ⟨⟨hinit.trans hup.up.1, hactive.trans hup.up.2⟩, ⟨hlow.trans hup.mac.1, hhigh.trans hup.mac.2⟩,
      fun t' ht' => ?_⟩
  case running p =>
    obtain rfl := Option.some.inj ht'
    exact hf
  case returned ok => cases ht'

theorem memory_advance {t : Transmitting} (hadv : advanceTransmit s t = some (s₁, es)) :
    s₁.ctrl.memory = s.ctrl.memory := by
  obtain ⟨⟨c, next⟩, hstep, heq⟩ := Option.map_eq_some_iff.1 hadv
  cases next <;> cases heq <;> exact (transmitStep_keeps hstep).memory

/-- The only event of a statement is the return. -/
theorem nil_of_advance {t : Transmitting} (hadv : advanceTransmit s t = some (s₁, es)) (g : UInt8) :
    copies g es = [] ∧ grantedBuffers g es = [] ∧ wireFrames g es = [] ∧ confirmations g es = [] := by
  obtain ⟨⟨c, next⟩, -, heq⟩ := Option.map_eq_some_iff.1 hadv
  cases next <;> cases heq <;> exact ⟨rfl, rfl, rfl, rfl⟩

theorem next_advance {t : Transmitting} (hup : SideUp low high s) (h : SideFifos buffer low high s tr m)
    (ht : s.transmit = some t) :
    ∃ s₁ es, advanceTransmit s t = some (s₁, es) ∧ ∃ m₁, SideNext buffer low high s tr m .advance s₁ es m₁ := by
  have hf := hup.onFifo t ht
  have hside := h t.fifoIdx hf
  have hfits := hside.fits
  rw [pc_of_transmit (transmit_view buffer ht)] at hfits
  obtain ⟨s₁, es, hadv, hreturns, m', hside', hfollows, hkeeps⟩ := advance_side hf ht hside
  have hon : OnFifo buffer t.fifoIdx s s₁ es :=
    ⟨fun g hg hgf => view_advance_of_ne ht hside.ok hf hfits hadv hg hgf, fun g _ => nil_of_advance hadv g⟩
  exact ⟨s₁, es, hadv, Function.update m t.fifoIdx m', hup.advance ht hadv, h.on hon hside', follows_update hfollows,
    fun g _ => keeps_update (P := fun _ => True) (fun _ => hkeeps) g trivial, hreturns,
    untouched_of_eq (memory_advance hadv)⟩

theorem memory_dmaSend (s : TxSide) (f : UInt8) (des0 des3 : UInt32) :
    (dmaSend s f des0 des3).1.ctrl.memory = s.ctrl.memory := by
  unfold dmaSend
  simp only
  split <;> rfl

theorem next_dma (hup : SideUp low high s) (h : SideFifos buffer low high s tr m) (f : UInt8) (des0 des3 : UInt32) :
    ∃ m₁, SideNext buffer low high s tr m (.dma f des0 des3) (dmaSend s f des0 des3).1 (dmaSend s f des0 des3).2
      m₁ := by
  by_cases hf : f < ethMaxTxFifoSupported
  · obtain ⟨m', hside', hfollows, hkeeps⟩ := dma_ok hf (h f hf) des0 des3
    have hon : OnFifo buffer f s (dmaSend s f des0 des3).1 (dmaSend s f des0 des3).2 := by
      refine ⟨fun g _ hgf => view_dmaSend_of_ne hgf s des0 des3, fun g hgf => ?_⟩
      unfold dmaSend
      simp only
      split
      · exact ⟨rfl, rfl, by simp [wireFrames, Ne.symm hgf], rfl⟩
      · exact ⟨rfl, rfl, rfl, rfl⟩
    have hup' : SideUp low high (dmaSend s f des0 des3).1 := by
      unfold dmaSend
      simp only
      split
      · exact ⟨hup.up, hup.mac, hup.onFifo⟩
      · exact hup
    refine ⟨Function.update m f m', hup', h.on hon hside', follows_update hfollows,
      fun g _ => keeps_update (P := fun _ => True) (fun _ => hkeeps) g trivial, fun bufIdx lenByte ok he => ?_,
      untouched_of_eq (memory_dmaSend s f des0 des3)⟩
    unfold dmaSend at he
    simp only at he
    split at he
    · cases List.mem_singleton.1 he
    · cases he
  · have hidle : dmaSend s f des0 des3 = (s, []) := if_neg fun hc => hf hc.1
    rw [hidle]
    exact ⟨m, SideNext.refl hup h (fun g => ⟨rfl, rfl, rfl, rfl⟩) (by simp)⟩

theorem next_irq (hb : BuffersOk buffer) (hup : SideUp low high s) (h : SideFifos buffer low high s tr m) (f : UInt8)
    (hsafe : f < ethMaxTxFifoSupported → (m f).Safe (fifoView buffer s f).pc) :
    ∃ c es, ethReportTransmission s.ctrl f = some (c, es) ∧
      ∃ m₁, SideNext buffer low high s tr m (.txIrq f) { s with ctrl := c } es m₁ := by
  by_cases hf : f < ethMaxTxFifoSupported
  · obtain ⟨c, es, hrun, hrep, m', hside', hfollows, -, hkeeps⟩ := irq_ok hb hf (h f hf) (hsafe hf)
    have hon : OnFifo buffer f s { s with ctrl := c } es := by
      refine ⟨hrep.others, fun g hgf => ?_⟩
      obtain ⟨hcopies, hgranted, hwire⟩ := nil_of_confirmed hrep.events g
      refine ⟨hcopies, hgranted, hwire, List.filterMap_eq_nil_iff.2 fun e he => ?_⟩
      obtain ⟨bufIdx, result, rfl⟩ := hrep.events e he
      exact if_neg (Ne.symm hgf)
    have hup' : SideUp low high { s with ctrl := c } :=
      ⟨⟨hrep.up.1.trans hup.up.1, hrep.up.2.trans hup.up.2⟩, ⟨hrep.mac.1.trans hup.mac.1, hrep.mac.2.trans hup.mac.2⟩,
        hup.onFifo⟩
    refine ⟨c, es, hrun, Function.update m f m', hup', h.on hon hside', follows_update hfollows, fun g hg => ?_,
      fun bufIdx lenByte ok he => (by obtain ⟨_, _, he⟩ := hrep.events _ he; cases he),
      untouched_of_eq hrep.memory⟩
    exact keeps_update (P := fun g => TxInput.txIrq f = .txIrq g → (fifoView buffer s g).pc = some .linkTail →
      (m g).dma < (m g).tail) (fun hP => hkeeps (hP rfl)) g hg
  · exact ⟨s.ctrl, [], if_neg hf, m, SideNext.refl hup h (fun g => ⟨rfl, rfl, rfl, rfl⟩) (by simp)⟩

/-- The granted buffer is none of those that the DMA has to send. -/
theorem offered_untouched (hb : BuffersOk buffer) {f : UInt8} (hf : f < ethMaxTxFifoSupported)
    (h : SideFifos buffer low high s tr m) (hidle : s.transmit = none) {container : List UInt8}
    (hlen : container.length ≤ 1522) (hroom : (m f).tail < (m f).lo + txRingSize f) :
    Untouched s (offered buffer f s (m f).tail container) := by
  intro g hg b hmem hown
  have hsize : (s.ctrl.tx.ring g).ringDesc.length = txRingSize g := (h g hg).ok.descs.size
  obtain ⟨k, hk, rfl⟩ := (mem_ringDesc hsize (m g).lo).1 hmem
  have hsent := ((h g hg).ok.descs.own k hk.1 hk.2).1 hown
  have haddr : ((s.ctrl.tx.ring g).of g k).des0 = txBufferAddr buffer g k :=
    ((h g hg).ok.descs.sending k hsent.1 hsent.2).1
  rw [haddr]
  refine read_insertFrame_of_apart (by omega) ?_
  by_cases hgf : g = f
  · subst hgf
    have htail : k < (m g).tail := by
      have := hsent.2
      rw [pc_of_idle hidle] at this
      exact this
    refine apart_txBufferAddr_of_slot hb hf fun hslot => ?_
    have := Ring.slot_inj ⟨by omega, hroom⟩ ⟨hk.1, by omega⟩ hslot
    omega
  · exact apart_txBufferAddr_of_fifo hb hf hg (Ne.symm hgf) _ k

theorem next_offer (hb : BuffersOk buffer) (hup : SideUp low high s) (h : SideFifos buffer low high s tr m)
    (hidle : s.transmit = none) (priority : UInt8) {container : List UInt8} (hlen : container.length ≤ 1522) :
    ∃ m₁, SideNext buffer low high s tr m (.offer priority container) (offerContainer s priority container).1
      (offerContainer s priority container).2 m₁ := by
  have hf := vlanPcpToFifoIdx_lt priority
  have hside := h _ hf
  have hroom := hside.ok.marks.room
  rw [pc_of_idle hidle] at hroom
  rcases Nat.lt_or_eq_of_le hroom with hroom | hfull
  · rw [offer_of_room hb hup hside hidle hroom]
    generalize vlanPcpToFifoIdx priority = f at *
    refine ⟨Function.update m f (m f), ⟨hup.up, hup.mac, fun t ht => ?_⟩,
      h.on ⟨?_, ?_⟩ (offered_side hb hf hup hside hidle hlen hroom ?_ ?_ rfl rfl),
      follows_update (Marks.Follows.refl _),
      fun g _ => keeps_update (P := fun _ => True) (fun _ => Marks.Keeps.refl _) g trivial, by simp,
      ?_⟩
    · obtain rfl := Option.some.inj ht
      exact hf
    · exact fun g hg hgf => view_offered_of_ne hb hf hg hgf hlen hidle
    · exact fun g hgf => ⟨by simp [copies, Ne.symm hgf], by simp [grantedBuffers, Ne.symm hgf], rfl, rfl⟩
    · simp [copies]
    · simp [grantedBuffers]
    · exact offered_untouched hb hf h hidle hlen hroom
  · rw [offer_of_full hup hside hidle hfull]
    exact ⟨m, SideNext.refl hup h (fun g => ⟨rfl, rfl, rfl, rfl⟩) (by simp)⟩

/-- **One step.** -/
theorem side_step (hb : BuffersOk buffer) (hup : SideUp low high s) (h : SideFifos buffer low high s tr m)
    (i : TxInput) (hshort : i.Short)
    (hsafe : ∀ f, i = .txIrq f → f < ethMaxTxFifoSupported → (m f).Safe (fifoView buffer s f).pc) :
    ∃ s₁ es, txSide.step s i = some (s₁, es) ∧ ∃ m₁, SideNext buffer low high s tr m i s₁ es m₁ := by
  have hnone : ∀ i, ∃ m₁, SideNext buffer low high s tr m i s [] m₁ := fun i =>
    ⟨m, SideNext.refl hup h (fun g => ⟨rfl, rfl, rfl, rfl⟩) (by simp)⟩
  cases i with
  | offer priority container =>
    cases hidle : s.transmit with
    | none => exact ⟨_, _, by simp only [txSide, hidle], next_offer hb hup h hidle priority hshort⟩
    | some t => exact ⟨s, [], by simp only [txSide, hidle], hnone _⟩
  | advance =>
    cases ht : s.transmit with
    | none => exact ⟨s, [], by simp only [txSide, ht], hnone _⟩
    | some t =>
      obtain ⟨s₁, es, hadv, hnext⟩ := next_advance hup h ht
      exact ⟨s₁, es, by simp only [txSide, ht, hadv], hnext⟩
  | txIrq f =>
    obtain ⟨c, es, hrun, hnext⟩ := next_irq hb hup h f (hsafe f rfl)
    exact ⟨{ s with ctrl := c }, es, step_txIrq hrun, hnext⟩
  | dma f des0 des3 => exact ⟨_, _, rfl, next_dma hup h f des0 des3⟩

/-! ## The start -/

theorem of_init (buffer : UInt8 → UInt32) {f : UInt8} (hpos : buffer f ≠ 0) (k : Nat) :
    (gmacInitTxBD (buffer f) txBufferLen (txRingSize f)).of f k =
      ⟨txBufferAddr buffer f k, 0, 0, txBufferLen.toUInt32 &&& gmacInfo1LengthMask⟩ := by
  have hslot := slot_lt f k
  unfold TxRing.of TxRing.bd gmacInitTxBD
  simp only [if_pos hpos]
  rw [List.getD_eq_getElem?_getD, List.getElem?_map, List.getElem?_range hslot]
  rfl

theorem descsOk_init (hb : BuffersOk buffer) {f : UInt8} (hf : f < ethMaxTxFifoSupported) :
    DescsOk buffer f [] (gmacInitTxBD (buffer f) txBufferLen (txRingSize f)) ⟨0, 0, 0, 0⟩ none := by
  have hpos : buffer f ≠ 0 := fun h => by
    have := hb.pos f hf
    rw [h, UInt32.toNat_zero] at this
    exact Nat.lt_irrefl 0 this
  have hmod : 0 = 0 % txRingSize f := (Nat.zero_mod _).symm
  refine ⟨?_, hmod, hmod, ringOk_init _ _, fun k _ _ => ?_, fun k _ _ => ?_, fun k _ hk => ?_, fun p hp => ?_,
    fun k _ hk => ?_, fun hlost => ?_, fun k _ hk => ?_, fun p hp => ?_, fun hp => ?_⟩
  · exact (List.length_map _).trans List.length_range
  · rw [of_init buffer hpos]
    refine iff_of_false (fun hown => hown ?_) fun hk => Nat.not_lt_zero k hk.2
    exact UInt32.zero_and
  · rw [of_init buffer hpos]
    have hlock : (txBufferLen.toUInt32 &&& gmacInfo1LengthMask) &&& gmacInfo1LockedMask = 0 := by decide
    exact ⟨fun h => h hlock, rfl, rfl⟩
  · exact absurd hk (Nat.not_lt_zero k)
  · cases hp
  · exact absurd hk (Nat.not_lt_zero k)
  · exact absurd hlost (Nat.lt_irrefl 0)
  · exact absurd hk (Nat.not_lt_zero k)
  · cases hp
  · cases hp

theorem side_init (hb : BuffersOk buffer) (low high : UInt32) (memory : Memory) :
    SideUp low high (TxSide.init buffer low high memory) ∧
      SideFifos buffer low high (TxSide.init buffer low high memory) [] fun _ => ⟨0, 0, 0, 0⟩ := by
  refine ⟨⟨⟨rfl, rfl⟩, ⟨rfl, rfl⟩, fun t ht => by cases ht⟩, fun f hf => ⟨?_, Nat.le_refl 0, rfl, rfl, fun _ => rfl⟩⟩
  have hmarks : MarksOk f ⟨0, 0, 0, 0⟩ none :=
    ⟨Nat.le_refl 0, Nat.le_refl 0, Nat.le_refl 0, Nat.le_refl 0, Nat.zero_le _⟩
  exact ⟨hmarks, descsOk_init hb hf, ⟨rfl, fun h => absurd h (Nat.lt_irrefl 0),
    fun k _ hk => absurd hk (Nat.not_lt_zero _), fun k _ _ _ => rfl⟩,
    ⟨fun k _ hk => absurd hk (Nat.not_lt_zero k), fun k _ hk => absurd hk (Nat.not_lt_zero k)⟩,
    fun k _ hk => absurd hk (Nat.not_lt_zero k), fun t ht => (by cases ht), rfl, (Nat.zero_mod _).symm,
    fun frame hmem => (by cases hmem)⟩

/-! ## Runs -/

theorem at_of_pc {f : UInt8} {p : TransmitPc} {ps : List TransmitPc} (hpc : (fifoView buffer s f).pc = some p)
    (hp : p ∈ ps) : s.At f ps := by
  obtain ⟨t, ht, rfl⟩ := Option.map_eq_some_iff.1 hpc
  obtain ⟨ht, hfifo⟩ := Option.filter_eq_some_iff.1 ht
  refine ⟨t.pc, hp, ?_⟩
  unfold TxSide.phase
  rw [ht, ← of_decide_eq_true hfifo]
  rfl

theorem pc_of_phase (buffer : UInt8 → UInt32) {f : UInt8} {p : TransmitPc} (h : s.phase = some (f, p)) :
    (fifoView buffer s f).pc = some p := by
  obtain ⟨t, ht, hphase⟩ := Option.map_eq_some_iff.1 h
  obtain ⟨rfl, rfl⟩ := Prod.mk.inj hphase
  exact pc_of_transmit (transmit_view buffer ht)

/-- What is left for the DMA. -/
theorem FifoOk.sending_iff {f : UInt8} {frames : List (List UInt8)} {m : Marks}
    (h : FifoOk buffer f frames (fifoView buffer s f) m) :
    s.Sending f ↔ m.dma < m.sent (fifoView buffer s f).pc := by
  have hgr := m.sent_le_granted (fifoView buffer s f).pc
  have hroom := h.marks.room
  have hlo := h.marks.lo_le_dma
  have hsize : (s.ctrl.tx.ring f).ringDesc.length = txRingSize f := h.descs.size
  constructor
  · rintro ⟨b, hmem, hown⟩
    obtain ⟨k, hk, rfl⟩ := (mem_ringDesc hsize m.lo).1 hmem
    have := (h.descs.own k hk.1 hk.2).1 hown
    omega
  · intro hlt
    have hwin : m.lo ≤ m.dma ∧ m.dma < m.lo + txRingSize f := ⟨hlo, by omega⟩
    exact ⟨_, (mem_ringDesc hsize m.lo).2 ⟨m.dma, hwin, rfl⟩,
      (h.descs.own m.dma hwin.1 hwin.2).2 ⟨Nat.le_refl _, hlt⟩⟩

/-- Every FIFO keeps its invariant, with marks that meet `K`, and every `Eth_Transmit` that
came back returned `E_OK`. -/
structure SideOk (buffer : UInt8 → UInt32) (low high : UInt32) (K : (UInt8 → Marks) → Prop) (s : TxSide)
    (tr : List TxEvent) : Prop where
  side : SideUp low high s
  fifos : ∃ m, SideFifos buffer low high s tr m ∧ K m
  returns : ∀ bufIdx lenByte ok, .transmitted bufIdx lenByte ok ∈ tr → ok = true

/-- No FIFO has lost a request. -/
def Lossless (m : UInt8 → Marks) : Prop := ∀ f < ethMaxTxFifoSupported, (m f).lo = (m f).head

theorem safe_of_unfilled {f : UInt8} (h : ¬ s.At f [.fillLength, .setOwn]) (m : Marks) :
    m.Safe (fifoView buffer s f).pc := by
  intro p hp hfill hne
  refine absurd (at_of_pc hp ?_) h
  rcases TransmitPc.filling_cases hfill hne with rfl | rfl <;> simp

theorem safe_of_calm {f : UInt8} {m : Marks} (h : FifoSide buffer low high f (fifoView buffer s f) tr m)
    (hlo : m.lo = m.head) (hcalm : s.At f [.linkTail, .fillLength, .setOwn] → s.Sending f) :
    m.Safe (fifoView buffer s f).pc := by
  intro p hp hfill hne
  have hat : s.At f [.linkTail, .fillLength, .setOwn] := at_of_pc hp (by
    rcases TransmitPc.filling_cases hfill hne with rfl | rfl <;> simp)
  have hlt := h.ok.sending_iff.1 (hcalm hat)
  have hlo_dma := h.ok.marks.lo_le_dma
  rw [hp, m.sent_of_ne hne] at hlt
  exact Or.inr ⟨by omega, hlt⟩

/-- A step from a state that meets `K` to one that meets it again. -/
theorem SideOk.step {K : (UInt8 → Marks) → Prop} (hb : BuffersOk buffer) (h : SideOk buffer low high K s tr)
    {i : TxInput} (hshort : i.Short) (hsafe : ∀ m, SideFifos buffer low high s tr m → K m →
      ∀ f, i = .txIrq f → f < ethMaxTxFifoSupported → (m f).Safe (fifoView buffer s f).pc)
    (hK : ∀ m m₁ s₁ es, K m → SideFifos buffer low high s tr m → SideNext buffer low high s tr m i s₁ es m₁ → K m₁) :
    ∃ s₁ es, txSide.step s i = some (s₁, es) ∧ SideOk buffer low high K s₁ (tr ++ es) ∧ Untouched s s₁ := by
  obtain ⟨m, hm, hKm⟩ := h.fifos
  obtain ⟨s₁, es, hstep, m₁, hnext⟩ := side_step hb h.side hm i hshort (hsafe m hm hKm)
  refine ⟨s₁, es, hstep, ⟨hnext.side, ⟨m₁, hnext.fifos, hK m m₁ s₁ es hKm hm hnext⟩, fun bufIdx lenByte ok he => ?_⟩,
    hnext.untouched⟩
  rcases List.mem_append.1 he with he | he
  · exact h.returns bufIdx lenByte ok he
  · exact hnext.returns bufIdx lenByte ok he

theorem unfilled_step {K : (UInt8 → Marks) → Prop} (hb : BuffersOk buffer) (h : SideOk buffer low high K s tr)
    {i : TxInput} (hc : Unfilled s i) (hK : ∀ m m₁, K m → (∀ f, (m f).Follows (m₁ f)) → K m₁) :
    ∃ s₁ es, txSide.step s i = some (s₁, es) ∧ SideOk buffer low high K s₁ (tr ++ es) ∧ Untouched s s₁ :=
  h.step hb hc.1 (fun _ _ _ f hi _ => safe_of_unfilled (hc.2 f hi) _)
    fun m m₁ _ _ hKm _ hnext => hK m m₁ hKm hnext.follows

theorem calm_step (hb : BuffersOk buffer) (h : SideOk buffer low high Lossless s tr) {i : TxInput} (hc : Calm s i) :
    ∃ s₁ es, txSide.step s i = some (s₁, es) ∧ SideOk buffer low high Lossless s₁ (tr ++ es) ∧ Untouched s s₁ := by
  refine h.step hb hc.1 (fun m hm hlo f hi hf => safe_of_calm (hm f hf) (hlo f hf) (hc.2 f hi))
    fun m m₁ s₁ es hlo hm hnext f hf => hnext.keeps f (fun hi hpc => ?_) (hlo f hf)
  have hlt := (hm f hf).ok.sending_iff.1 (hc.2 f hi (at_of_pc hpc (by simp)))
  rwa [hpc] at hlt

variable {memory : Memory} {is : List TxInput}

theorem sideOk_init (hb : BuffersOk buffer) (low high : UInt32) (memory : Memory) :
    SideOk buffer low high Lossless (TxSide.init buffer low high memory) [] := by
  obtain ⟨hup, hm⟩ := side_init hb low high memory
  exact ⟨hup, ⟨_, hm, fun _ _ => rfl⟩, fun _ _ _ he => by cases he⟩

theorem SideOk.mono {K L : (UInt8 → Marks) → Prop} (h : SideOk buffer low high K s tr) (hKL : ∀ m, K m → L m) :
    SideOk buffer low high L s tr := by
  obtain ⟨m, hm, hK⟩ := h.fifos
  exact ⟨h.side, ⟨m, hm, hKL m hK⟩, h.returns⟩

theorem unfilled_run (hb : BuffersOk buffer) (hall : txSide.AllSteps Unfilled (TxSide.init buffer low high memory) is) :
    ∃ s tr, txSide.run (TxSide.init buffer low high memory) is = some (s, tr) ∧
      SideOk buffer low high (fun _ => True) s tr := by
  refine txSide.run_exists (SideOk buffer low high fun _ => True) (fun s tr i h hc => ?_)
    ((sideOk_init hb low high memory).mono fun _ _ => trivial) hall
  obtain ⟨s₁, es, hstep, h₁, -⟩ := unfilled_step hb h hc fun _ _ _ _ => trivial
  exact ⟨s₁, es, hstep, h₁⟩

theorem calm_run (hb : BuffersOk buffer) (hall : txSide.AllSteps Calm (TxSide.init buffer low high memory) is) :
    ∃ s tr, txSide.run (TxSide.init buffer low high memory) is = some (s, tr) ∧
      SideOk buffer low high Lossless s tr := by
  refine txSide.run_exists (SideOk buffer low high Lossless) (fun s tr i h hc => ?_)
    (sideOk_init hb low high memory) hall
  obtain ⟨s₁, es, hstep, h₁, -⟩ := calm_step hb h hc
  exact ⟨s₁, es, hstep, h₁⟩

/-- A property of the steps of calm runs. -/
theorem calm_everyStep (hb : BuffersOk buffer) {P : List TxEvent → TxSide → TxInput → TxSide → List TxEvent → Prop}
    (hP : ∀ s tr i s₁ es, SideOk buffer low high Lossless s tr → Calm s i → txSide.step s i = some (s₁, es) →
      P tr s i s₁ es)
    (hall : txSide.AllSteps Calm (TxSide.init buffer low high memory) is) :
    txSide.EveryStep P [] (TxSide.init buffer low high memory) is := by
  refine txSide.everyStep_of (SideOk buffer low high Lossless) (fun s tr i s₁ es h hc hstep => ⟨?_, ?_⟩)
    (sideOk_init hb low high memory) hall
  · obtain ⟨s', es', hstep', h', -⟩ := calm_step hb h hc
    obtain ⟨rfl, rfl⟩ := Prod.mk.inj (Option.some.inj (hstep'.symm.trans hstep))
    exact h'
  · exact hP s tr i s₁ es h hc hstep

end Side

end CanTsn
