import CanTsnGateway.Gateway.Filling

/-!
# The bytes of a container

Every container the task holds or hands to the driver is version, count byte and the
appended records, so a parser reads exactly these records back (`container_layout`).
The count byte is the number of records modulo 256: it is right while no record goes
into a pending container that already counts 255 (`countByte_true`), and wrong after 256
empty frames behind a closed gate (`countByte_wraps`).
-/

namespace CanTsn

open Packer PrefixCode StepMachine

/-- What the last `memcpy` put into a granted buffer. -/
def lastCopied (tr : List GwEvent) : List UInt8 :=
  tr.foldl (fun b e => match e with
    | .copied _ _ bytes => bytes
    | _ => b) []

/-- `ReachedContainer map len bytes rs`: in some run on short messages a container of
length `len` is pending or handed to `Eth_Transmit`; its bytes are `bytes`, and `rs` has
been appended since the container before it was closed. -/
inductive ReachedContainer (map : List CanIdToPduId) : Nat → List UInt8 → List RoutedPdu → Prop
  | pending {u : UninitLocals} {is : List GwInput} {s : GwState} {tr : List GwEvent}
      (hshort : ∀ i ∈ is, ShortInput i)
      (hrun : (gateway map).run (GwState.start u) is = some (s, tr))
      (hpending : s.containerPending = true) :
      ReachedContainer map s.containerLen.toNat (s.currentContainer.upto s.containerLen.toNat)
        (openRecords tr)
  | handed {u : UninitLocals} {is : List GwInput} {s : GwState} {pre post : List GwEvent}
      {bufIdx : UInt32} {lenByte : UInt16} {ok : Bool} (hshort : ∀ i ∈ is, ShortInput i)
      (hrun : (gateway map).run (GwState.start u) is =
        some (s, pre ++ .transmitted bufIdx lenByte ok :: post)) :
      ReachedContainer map lenByte.toNat ((lastCopied pre).take lenByte.toNat) (openRecords pre)

/-! ## Layout -/

theorem length_encodeAll_toPdu (rs : List RoutedPdu) (h : Short rs) :
    (pduCode.encodeAll (rs.map RoutedPdu.toPdu)).length = recordsLoad rs := by
  induction rs with
  | nil => rfl
  | cons r rs ih =>
    rw [List.map_cons, pduCode.encodeAll_cons, List.length_append,
      ih fun x hx => h x (List.mem_cons_of_mem r hx)]
    show (encodePdu r.toPdu).length + recordsLoad rs = recordsLoad (r :: rs)
    rw [length_encodePdu_toPdu r (h r List.mem_cons_self)]
    simp [recordsLoad, load]

theorem length_containerBytes (rs : List RoutedPdu) (h : Short rs) :
    (containerBytes rs).length = 2 + recordsLoad rs := by
  unfold containerBytes
  rw [List.length_cons, List.length_cons, length_encodeAll_toPdu rs h]
  omega

theorem lastCopied_snoc (tr : List GwEvent) (ethPayload : UInt32) (lenByte : UInt16)
    (bytes : List UInt8) : lastCopied (tr ++ [.copied ethPayload lenByte bytes]) = bytes := by
  unfold lastCopied
  rw [List.foldl_append]
  rfl

/-- A request to transmit comes with the bytes of the open records and their length. -/
def HandsOver (past : List GwEvent) (e : GwEvent) : Prop :=
  ∀ bufIdx lenByte ok, e = .transmitted bufIdx lenByte ok →
    Short (openRecords past) ∧ lastCopied past = containerBytes (openRecords past) ∧
      lenByte.toNat = 2 + recordsLoad (openRecords past)

theorem run_handsOver {map : List CanIdToPduId} {u : UninitLocals} {is : List GwInput} {s : GwState}
    {tr : List GwEvent} (hshort : ∀ i ∈ is, ShortInput i)
    (hrun : (gateway map).run (GwState.start u) is = some (s, tr)) : AtEvery HandsOver [] tr := by
  refine sends_rule (fun _ _ => True) (fun _ => True) HandsOver trivial (fun _ _ _ => trivial) ?_ ?_
    hshort ((gateway map).allSteps_of_forall _ is fun _ _ => trivial) hrun
  · rintro past e hq bufIdx lenByte ok rfl
    cases hq
  · intro past s s₁ i p cause hsend hs _ _ _ hopen
    have hlen := hsend.sim.len
    rw [if_neg hsend.ne_nil] at hlen
    rw [atEvery_sendEvents_iff (fun _ _ _ _ _ _ _ he => GwEvent.noConfusion he)
      fun _ _ _ _ _ he => GwEvent.noConfusion he]
    intro _ ethPayload lenByte _
    refine ⟨fun _ _ _ he => GwEvent.noConfusion he, ?_⟩
    rintro _ _ _ ⟨rfl, rfl, rfl⟩
    have hrecords : ∀ e, openRecords (past ++ [.provided (tcToFifo s₁.currentTC) txBufferRequest e] ++
        [.copied ethPayload lenByte (s₁.currentContainer.upto s₁.containerLen.toNat)]) =
          openRecords past := by
      intro e
      rw [openRecords, openFrom_append, openFrom_append]
      rfl
    rw [hrecords, lastCopied_snoc, hopen]
    exact ⟨hs, hsend.sim.bytes hsend.ne_nil hs, hlen⟩

theorem reachedContainer_spec {map : List CanIdToPduId} {len : Nat} {bytes : List UInt8}
    {rs : List RoutedPdu} (h : ReachedContainer map len bytes rs) :
    bytes.length = len ∧ bytes = containerBytes rs := by
  cases h with
  | pending hshort hrun hpending =>
    obtain ⟨p, h, hp⟩ := history_run_short hshort hrun
    have hne : p.pending ≠ [] := by
      rw [h.sim.pending] at hpending
      simpa using hpending
    have hs : Short p.pending := fun r hr => hp r (List.mem_append_left _ (List.mem_append_right _ hr))
    have hlen := h.sim.len
    rw [if_neg hne] at hlen
    rw [h.opened, h.sim.bytes hne hs]
    exact ⟨(length_containerBytes _ hs).trans hlen.symm, rfl⟩
  | @handed u is s pre post bufIdx lenByte ok hshort hrun =>
    obtain ⟨hs, hcopied, hlen⟩ := (run_handsOver hshort hrun).at rfl bufIdx lenByte ok rfl
    rw [List.nil_append] at hs hcopied hlen
    have hlength := length_containerBytes _ hs
    rw [hcopied, List.take_of_length_le (by omega)]
    exact ⟨by omega, rfl⟩

/-- **Layout and unique decodability.**  A container is version, count byte and the
appended records with nothing left over, the parser reads the records back, and
containers with the same record bytes carry the same PDUs. -/
theorem container_layout :
    (∀ map len bytes rs, ReachedContainer map len bytes rs →
      bytes.length = len ∧
      bytes = gwContainerVersion :: rs.length.toUInt8 :: pduCode.encodeAll (rs.map RoutedPdu.toPdu) ∧
      parseContainer bytes = some (rs.map RoutedPdu.toPdu)) ∧
    (∀ map map' len len' bytes bytes' rs rs', ReachedContainer map len bytes rs →
      ReachedContainer map' len' bytes' rs' → bytes.drop 2 = bytes'.drop 2 →
      rs.map RoutedPdu.toPdu = rs'.map RoutedPdu.toPdu) := by
  refine ⟨fun map len bytes rs h => ?_, fun map map' len len' bytes bytes' rs rs' h h' hdrop => ?_⟩
  · obtain ⟨hlen, hbytes⟩ := reachedContainer_spec h
    exact ⟨hlen, hbytes, by rw [hbytes, parseContainer_containerBytes]⟩
  · rw [(reachedContainer_spec h).2, (reachedContainer_spec h').2] at hdrop
    exact pduCode.encodeAll_injective hdrop

/-- Two records are pending, the second container is handed over. -/
theorem container_layout_mixed :
    ∃ bytes rs bytes' rs', ReachedContainer mixedTable.rows 18 bytes rs ∧
      ReachedContainer mixedTable.rows 13 bytes' rs' ∧
      rs.map RoutedPdu.size = [5, 11] ∧ rs'.map RoutedPdu.size = [8, 3] ∧ bytes.length = 18 ∧
      bytes = gwContainerVersion :: rs.length.toUInt8 :: pduCode.encodeAll (rs.map RoutedPdu.toPdu) ∧
      parseContainer bytes' = some (rs'.map RoutedPdu.toPdu) ∧
      (bytes.drop 2 = bytes'.drop 2 → rs.map RoutedPdu.toPdu = rs'.map RoutedPdu.toPdu) := by
  obtain ⟨s, tr, hrun, hpending, hlen, hsize⟩ : ∃ s tr,
      (gateway mixedTable.rows).run (GwState.start .zero) (mixedRounds.take 2) = some (s, tr) ∧
      s.containerPending = true ∧ s.containerLen.toNat = 18 ∧
      (openRecords tr).map RoutedPdu.size = [5, 11] := ⟨_, _, rfl, rfl, rfl, rfl⟩
  obtain ⟨s', pre, c, hrun', hsize'⟩ : ∃ s' pre c,
      (gateway mixedTable.rows).run (GwState.start .zero) mixedRounds =
        some (s', pre ++ [.transmitted 32 13 true, .closed c]) ∧
      (openRecords pre).map RoutedPdu.size = [8, 3] := by
    obtain ⟨s', tr', c, hrun', htr, hsize'⟩ : ∃ s' tr' c,
        (gateway mixedTable.rows).run (GwState.start .zero) mixedRounds = some (s', tr') ∧
        tr' = tr'.take (tr'.length - 2) ++ [.transmitted 32 13 true, .closed c] ∧
        (openRecords (tr'.take (tr'.length - 2))).map RoutedPdu.size = [8, 3] := ⟨_, _, _, rfl, rfl, rfl⟩
    exact ⟨s', _, c, hrun'.trans (congrArg (fun tr => some (s', tr)) htr), hsize'⟩
  have hreached := ReachedContainer.pending (by decide) hrun hpending
  rw [hlen] at hreached
  have hreached' := ReachedContainer.handed (by decide) hrun'
  obtain ⟨hlength, hbytes, -⟩ := container_layout.1 _ _ _ _ hreached
  exact ⟨_, _, _, _, hreached, hreached', hsize, hsize', hlength, hbytes,
    (container_layout.1 _ _ _ _ hreached').2.2, container_layout.2 _ _ _ _ _ _ _ _ hreached hreached'⟩

/-! ## The count byte -/

/-- Byte 1 is the number of records behind the header. -/
def CountTrue (bytes : List UInt8) : Prop :=
  ∃ ps, parseContainer bytes = some ps ∧ bytes[1]?.map UInt8.toNat = some ps.length

theorem countTrue_iff (rs : List RoutedPdu) :
    CountTrue (containerBytes rs) ↔ rs.length ≤ 255 := by
  have hcount : (containerBytes rs)[1]?.map UInt8.toNat = some (rs.length % 256) := by
    show some rs.length.toUInt8.toNat = _
    rw [Nat.toUInt8_eq, UInt8.toNat_ofNat']
  unfold CountTrue
  rw [hcount, parseContainer_containerBytes]
  constructor
  · rintro ⟨ps, hps, hlen⟩
    have hmod := Option.some.inj hlen
    rw [← Option.some.inj hps, List.length_map] at hmod
    omega
  · intro h
    refine ⟨_, rfl, ?_⟩
    rw [List.length_map, Nat.mod_eq_of_lt (by omega)]

/-- The round does not add a record to a pending container that counts 255. -/
def CountFits (map : List CanIdToPduId) (s : GwState) (i : GwInput) : Prop :=
  s.containerPending = true → s.iPduCount = 255 → ∀ r, routed map s i = some r →
    containerRoom < s.containerLen.toNat + r.size

instance (map : List CanIdToPduId) (s : GwState) (i : GwInput) : Decidable (CountFits map s i) :=
  inferInstanceAs (Decidable (s.containerPending = true → s.iPduCount = 255 → ∀ r ∈ routed map s i,
    containerRoom < s.containerLen.toNat + r.size))

/-- Under the condition the open container keeps at most 255 records. -/
theorem length_take_le {map : List CanIdToPduId} {s : GwState} {i : GwInput} {p : Packer RoutedPdu}
    (h : Sim map s p) (hle : p.pending.length ≤ 255) (hc : CountFits map s i) :
    (take RoutedPdu.size 2 containerRoom p (routed map s i)).pending.length ≤ 255 := by
  refine take_pending_of (Q := fun rs => rs.length ≤ 255) h hle fun r hr hfit => ?_
  have hlt : p.pending.length ≠ 255 := by
    intro h255
    have hne : p.pending ≠ [] := by
      intro hnil
      rw [hnil] at h255
      cases h255
    have hlen := h.len
    rw [if_neg hne] at hlen
    have hover := hc (by rw [h.pending]; simpa using hne) (by rw [h.count, h255]; rfl) r hr
    omega
  rw [List.length_append, List.length_singleton]
  omega

/-- **The count byte is true** in every run in which no record goes into a pending
container that counts 255. -/
theorem countByte_true (map : List CanIdToPduId) (u : UninitLocals) (is : List GwInput) (s : GwState)
    (tr : List GwEvent) (hshort : ∀ i ∈ is, ShortInput i)
    (hC : (gateway map).AllSteps (CountFits map) (GwState.start u) is)
    (hrun : (gateway map).run (GwState.start u) is = some (s, tr)) :
    ∀ ethPayload lenByte bytes, .copied ethPayload lenByte bytes ∈ tr → CountTrue bytes := by
  have hall : AtEvery (fun _ e => ∀ ethPayload lenByte bytes, e = .copied ethPayload lenByte bytes →
      CountTrue bytes) [] tr := by
    refine sends_rule (CountFits map) (fun p => p.pending.length ≤ 255) _ (Nat.zero_le _) ?_ ?_ ?_
      hshort hC hrun
    · intro tr s i p h hc hj
      exact packRound_pending_of (Q := fun rs => rs.length ≤ 255) (Nat.zero_le _) hj
        (length_take_le h.sim hj hc)
    · rintro past e hq ethPayload lenByte bytes rfl
      cases hq
    · intro past s s₁ i p cause hsend hs hc hj ⟨tr, h⟩ _
      rw [atEvery_sendEvents_iff (fun _ _ _ _ _ _ _ he => GwEvent.noConfusion he)
        fun _ _ _ _ _ he => GwEvent.noConfusion he]
      intro _ _ _ _
      refine ⟨?_, fun _ _ _ he => GwEvent.noConfusion he⟩
      rintro _ _ _ ⟨rfl, rfl, rfl⟩
      rw [hsend.sim.bytes hsend.ne_nil hs, countTrue_iff]
      exact length_take_le h.sim hj hc
  intro ethPayload lenByte bytes hmem
  exact hall.mem (Q := fun _ e => ∀ ethPayload lenByte bytes, e = .copied ethPayload lenByte bytes →
    CountTrue bytes) hmem ethPayload lenByte bytes rfl

/-- 255 records, and a message that does not fit. -/
theorem countByte_true_full :
    ∃ s tr ethPayload lenByte bytes,
      (gateway shippedTable.rows).run (GwState.start .zero) countingRounds = some (s, tr) ∧
      (closedRecords tr).map List.length = [255] ∧ .copied ethPayload lenByte bytes ∈ tr ∧ CountTrue bytes := by
  obtain ⟨s, tr, hrun⟩ := gateway_run_total shippedTable (GwState.start .zero) countingRounds
  have hcount : ((gateway shippedTable.rows).run (GwState.start .zero) countingRounds).map
      (fun r => (closedRecords r.2).map List.length) = some [255] := by decide +kernel
  have hcopied : ((gateway shippedTable.rows).run (GwState.start .zero) countingRounds).map
      (fun r => r.2.any fun e => match e with
        | .copied _ _ _ => true
        | _ => false) = some true := by decide +kernel
  rw [hrun] at hcount hcopied
  obtain ⟨e, hmem, he⟩ := List.any_eq_true.1 (Option.some.inj hcopied)
  cases e with
  | copied ethPayload lenByte bytes =>
    exact ⟨s, tr, ethPayload, lenByte, bytes, hrun, Option.some.inj hcount, hmem,
      countByte_true shippedTable.rows .zero countingRounds s tr shortInput_countingRounds (by decide +kernel) hrun
        ethPayload lenByte bytes hmem⟩
  | _ => cases he

/-- 256 empty frames: 255 behind the closed gate, one with the gate open. -/
theorem countByte_wraps :
    ¬ ∀ (map : List CanIdToPduId) (u : UninitLocals) (is : List GwInput) (s : GwState)
      (tr : List GwEvent), (∀ i ∈ is, ShortInput i) →
      (gateway map).run (GwState.start u) is = some (s, tr) →
      ∀ ethPayload lenByte bytes, .copied ethPayload lenByte bytes ∈ tr → CountTrue bytes := by
  intro hall
  obtain ⟨s, pre, _, c, hrun, -, -⟩ :=
    run_blank_sent 0 0 (by decide) (by decide) 255 0 (by decide) (by decide)
  have htrue := hall canPduMap .zero _ s _ (shortInput_blankRounds (by decide) (by decide) 255 0)
    hrun _ _ (containerBytes _) (List.mem_append_right pre (List.mem_cons_of_mem _ List.mem_cons_self))
  rw [countTrue_iff, List.length_append, List.length_replicate, List.length_singleton] at htrue
  omega

end CanTsn
