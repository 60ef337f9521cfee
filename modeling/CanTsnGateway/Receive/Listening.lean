import CanTsnGateway.Receive.Fidelity

/-!
# Polled mailboxes keep listening

A read takes its mailbox through idle, and the callback arms it again with the global
`rxData`; the status of that call is ignored.  It always succeeds: after the
initialisation loop and after every poll, every polled mailbox waits for a frame with a
buffer that outlives the call (`allListening_run`).  The polls go round, so a frame that
waits is read within one round of them (`read_of_turn`).
-/

namespace CanTsn

open StepMachine

/-- The mailbox waits for a frame to be polled, and its buffer is no local variable of
the driver: `rxShadow` has eight entries. -/
structure Listening (h : FlexcanIpMbHandle) : Prop where
  state : h.state = .rxBusy
  isPolling : h.isPolling = true
  buffer : h.pMBmessage = some .rxData ∨ ∃ i < 8, h.pMBmessage = some (.rxShadow i)

/-- Every polled mailbox that the instances have is listening. -/
def AllListening (p : CanRxTaskParam) (s : RxState) : Prop :=
  ∀ r ∈ p.pollOrder, p.mb r.1 r.2 < maxMbNum → Listening (s.mbs r.1 (p.mb r.1 r.2))

def RxInput.isPoll : RxInput → Bool
  | .poll => true
  | _ => false

/-! ## The initialisation loop -/

theorem mem_pollOrder {p : CanRxTaskParam} {r : UInt8 × Nat} (h : r ∈ p.pollOrder) :
    (r.1 = 0 ∨ r.1 = 1) ∧ r.2 < 4 := by
  have hcount : p.mbCount.toNat ≤ 4 := p.mbCount_le
  obtain ⟨inst, hinst, hr⟩ := List.mem_flatMap.1 h
  obtain ⟨i, hi, rfl⟩ := List.mem_map.1 hr
  have := List.mem_range.1 hi
  exact ⟨by simpa using hinst, by simp only; omega⟩

/-- Before its turn a mailbox is idle, or an earlier turn has armed it. -/
def IdleOrListening (s : RxState) : Prop :=
  ∀ inst mb, (s.mbs inst mb).state = .idle ∨ Listening (s.mbs inst mb)

theorem listening_shadow {i : Nat} (hi : i < 8) : Listening ⟨some (.rxShadow i), .rxBusy, true⟩ :=
  ⟨rfl, rfl, Or.inr ⟨i, hi, rfl⟩⟩

theorem listening_setMb (s : RxState) (inst mb : UInt8) {h : FlexcanIpMbHandle} (hl : Listening h) (i m : UInt8) :
    Listening ((s.setMb inst mb h).mbs i m) ∨ (s.setMb inst mb h).mbs i m = s.mbs i m := by
  by_cases heq : i = inst ∧ m = mb
  · obtain ⟨rfl, rfl⟩ := heq
    rw [mbs_setMb]
    exact Or.inl hl
  · exact Or.inr (if_neg heq)

/-- One turn arms its mailbox and does not disturb the others. -/
theorem armShadow_listening (p : CanRxTaskParam) {s : RxState} {r : UInt8 × Nat} (hr : r.2 < 8)
    (h : IdleOrListening s) :
    IdleOrListening (armShadow p s r) ∧
    (∀ inst mb, Listening (s.mbs inst mb) → Listening ((armShadow p s r).mbs inst mb)) ∧
    (p.mb r.1 r.2 < maxMbNum → Listening ((armShadow p s r).mbs r.1 (p.mb r.1 r.2))) := by
  unfold armShadow
  rw [flexcanIpReceive_polling]
  split
  · next hfree =>
    have hset := listening_setMb s r.1 (p.mb r.1 r.2) (listening_shadow hr)
    refine ⟨fun inst mb => ?_, fun inst mb hl => ?_, fun _ => ?_⟩
    · rcases hset inst mb with hl | hsame
      · exact Or.inr hl
      · rw [hsame]
        exact h inst mb
    · rcases hset inst mb with hl' | hsame
      · exact hl'
      · rw [hsame]
        exact hl
    · rw [mbs_setMb]
      exact listening_shadow hr
  · next hbusy =>
    -- a mailbox that is not idle is listed twice, and armed
    refine ⟨h, fun _ _ hl => hl, fun hmb => ?_⟩
    have hrange : flexcanIsMbOutOfRange (p.mb r.1 r.2) = false := decide_eq_false (UInt8.not_le.2 hmb)
    rcases h r.1 (p.mb r.1 r.2) with hidle | hl
    · exact absurd ⟨hrange, hidle⟩ hbusy
    · exact hl

theorem foldl_armShadow_listening (p : CanRxTaskParam) (l : List (UInt8 × Nat)) (hl : ∀ r ∈ l, r.2 < 8)
    {s : RxState} (h : IdleOrListening s) :
    (∀ inst mb, Listening (s.mbs inst mb) → Listening ((l.foldl (armShadow p) s).mbs inst mb)) ∧
    ∀ r ∈ l, p.mb r.1 r.2 < maxMbNum → Listening ((l.foldl (armShadow p) s).mbs r.1 (p.mb r.1 r.2)) := by
  induction l generalizing s with
  | nil => exact ⟨fun _ _ hl => hl, nofun⟩
  | cons r l ih =>
    obtain ⟨hkeep, hothers, harmed⟩ := armShadow_listening p (hl r List.mem_cons_self) h
    obtain ⟨ihothers, iharmed⟩ := ih (fun r' hr' => hl r' (List.mem_cons_of_mem r hr')) hkeep
    refine ⟨fun inst mb hlisten => ihothers inst mb (hothers inst mb hlisten), fun r' hr' hmb => ?_⟩
    rcases List.mem_cons.1 hr' with rfl | hr'
    · exact ihothers _ _ (harmed hmb)
    · exact iharmed r' hr' hmb

theorem allListening_start (p : CanRxTaskParam) (handlerData : FlexcanIpMsgBuff) (capacity : Nat) :
    AllListening p (.start p handlerData capacity) := by
  have hlt : ∀ r ∈ p.pollOrder, r.2 < 8 := fun r hr => Nat.lt_trans (mem_pollOrder hr).2 (by decide)
  exact (foldl_armShadow_listening p p.pollOrder hlt fun _ _ => Or.inl rfl).2

/-! ## Reads -/

/-- **A read keeps every mailbox listening.** -/
theorem allListening_read {p : CanRxTaskParam} {s : RxState} (h : AllListening p s) {r : UInt8 × Nat}
    (hr : r ∈ p.pollOrder) : AllListening p (flexcanIpMainFunctionRead s r.1 (p.mb r.1 r.2)).1 := by
  rcases mainFunctionRead_cases s r.1 (p.mb r.1 r.2) with ⟨hread, -⟩ | ⟨f, sent, hread, -, -, heff⟩
  · rw [hread]
    exact h
  · rw [hread]
    intro r' hr' hmb
    by_cases heq : r'.1 = r.1 ∧ p.mb r'.1 r'.2 = p.mb r.1 r.2
    · rw [heq.2] at hmb
      rw [heq.2, heq.1, mbs_flexcanIrqHandlerRxMb s f (mem_pollOrder hr).1 hmb]
      exact ⟨rfl, rfl, Or.inl rfl⟩
    · rw [heff.others _ _ heq]
      exact h r' hr' hmb

/-- A frame that waits in a listening mailbox is read by its poll, with one callback. -/
theorem read_of_listening {s : RxState} {inst mb : UInt8} {f : CanFrame} (h : Listening (s.mbs inst mb))
    (hav : s.available inst mb = some f) :
    ∃ s' sent, flexcanIpMainFunctionRead s inst mb = (s', [.rxComplete inst mb f sent]) ∧
      s'.available inst mb = none := by
  rcases mainFunctionRead_cases s inst mb with ⟨-, hnone | hidle⟩ | ⟨f', sent, hread, hav', -, heff⟩
  · rw [hav] at hnone
    cases hnone
  · exact absurd h.state hidle
  · obtain rfl := Option.some.inj (hav.symm.trans hav')
    refine ⟨_, sent, hread, ?_⟩
    rw [heff.available]
    exact if_pos ⟨rfl, rfl⟩

/-! ## Steps -/

/-- The task moves on to the poll after the next one. -/
def RxState.advance (p : CanRxTaskParam) (s : RxState) : RxState :=
  { s with next := (s.next + 1) % p.pollOrder.length }

theorem poll_eq {p : CanRxTaskParam} {s : RxState} {r : UInt8 × Nat} (h : p.pollOrder[s.next]? = some r) :
    poll p s = flexcanIpMainFunctionRead (s.advance p) r.1 (p.mb r.1 r.2) := by
  unfold poll
  rw [h]
  rfl

/-- What holds at every point of a run: the mailboxes listen, and the next poll is one of
the list. -/
structure Polling (p : CanRxTaskParam) (s : RxState) : Prop where
  listening : AllListening p s
  next_lt : p.pollOrder ≠ [] → s.next < p.pollOrder.length

theorem next_mainFunctionRead (s : RxState) (inst mb : UInt8) :
    (flexcanIpMainFunctionRead s inst mb).1.next = s.next := by
  rcases mainFunctionRead_cases s inst mb with ⟨hread, -⟩ | ⟨f, sent, hread, -⟩
  · rw [hread]
  · rw [hread]
    exact next_flexcanIrqHandlerRxMb s inst mb f

theorem polling_step {p : CanRxTaskParam} {s s' : RxState} {i : RxInput} {es : List RxEvent}
    (h : Polling p s) (hs : (canReceivePollingTask p).step s i = some (s', es)) : Polling p s' := by
  cases i with
  | arrive inst mb f =>
    obtain ⟨rfl, -⟩ := Prod.mk.inj (Option.some.inj hs)
    exact ⟨h.listening, h.next_lt⟩
  | receive =>
    obtain ⟨rfl, -⟩ := Prod.mk.inj (Option.some.inj hs)
    exact ⟨h.listening, h.next_lt⟩
  | poll =>
    have heq : poll p s = (s', es) := Option.some.inj hs
    cases hr : p.pollOrder[s.next]? with
    | none =>
      unfold poll at heq
      rw [hr] at heq
      obtain ⟨rfl, -⟩ := Prod.mk.inj heq
      exact h
    | some r =>
      rw [poll_eq hr] at heq
      have hs' := congrArg Prod.fst heq
      simp only at hs'
      rw [← hs']
      have hmoved : AllListening p (s.advance p) := h.listening
      refine ⟨allListening_read hmoved (List.mem_of_getElem? hr), fun hne => ?_⟩
      rw [next_mainFunctionRead]
      exact Nat.mod_lt _ (List.length_pos_iff.2 hne)

theorem polling_run {p : CanRxTaskParam} {handlerData : FlexcanIpMsgBuff} {capacity : Nat}
    {is : List RxInput} {s : RxState} {tr : List RxEvent}
    (hrun : (canReceivePollingTask p).run (.start p handlerData capacity) is = some (s, tr)) :
    Polling p s := by
  refine (canReceivePollingTask p).run_invariant_always (fun s _ => Polling p s)
    (fun s _ i s₁ es h hs => polling_step h hs)
    ⟨allListening_start p handlerData capacity, fun hne => ?_⟩ hrun
  have hrest := (armed_start p handlerData capacity).rest
  rw [hrest]
  exact List.length_pos_iff.2 hne

/-! ## The turn of a mailbox -/

/-- How many of `n` positions are polled before position `k`, starting with `next`. -/
def turnsUntil (n next k : Nat) : Nat := if next ≤ k then k - next else k + n - next

theorem turnsUntil_lt {n next k : Nat} (hk : k < n) (hnext : next < n) : turnsUntil n next k < n := by
  unfold turnsUntil
  split <;> omega

theorem turnsUntil_succ {n next k : Nat} (hk : k < n) (hnext : next < n) (hne : next ≠ k) :
    turnsUntil n ((next + 1) % n) k + 1 = turnsUntil n next k := by
  unfold turnsUntil
  rcases Nat.lt_or_eq_of_le hnext with hlt | hlast
  · rw [Nat.mod_eq_of_lt hlt]
    split <;> split <;> omega
  · rw [Nat.succ_eq_add_one] at hlast
    rw [hlast, Nat.mod_self]
    split <;> split <;> omega

theorem framesRead_append (inst mb : UInt8) (tr es : List RxEvent) :
    framesRead inst mb (tr ++ es) = framesRead inst mb tr ++ framesRead inst mb es := List.filterMap_append

theorem framesRead_rxComplete (inst mb : UInt8) (f : CanFrame) (sent : QueueSend) :
    framesRead inst mb [.rxComplete inst mb f sent] = [f] := by
  simp [framesRead, RxEvent.frameRead]

/-- On its own turn a mailbox with a frame is read. -/
theorem poll_own_turn {p : CanRxTaskParam} {s s' : RxState} {es : List RxEvent} {r : UInt8 × Nat}
    (hk : p.pollOrder[s.next]? = some r) (hmb : p.mb r.1 r.2 < maxMbNum) (h : Polling p s)
    (hav : (s.available r.1 (p.mb r.1 r.2)).isSome = true) (hp : poll p s = (s', es)) :
    framesRead r.1 (p.mb r.1 r.2) es ≠ [] := by
  obtain ⟨f, hf⟩ := Option.isSome_iff_exists.1 hav
  have hlisten : Listening ((s.advance p).mbs r.1 (p.mb r.1 r.2)) :=
    h.listening r (List.mem_of_getElem? hk) hmb
  obtain ⟨s₁, sent, hread, -⟩ := read_of_listening hlisten hf
  rw [poll_eq hk] at hp
  obtain ⟨-, rfl⟩ := Prod.mk.inj (hread.symm.trans hp)
  rw [framesRead_rxComplete]
  exact List.cons_ne_nil f []

/-- Another's turn reads the mailbox too, if it is listed twice, or its frame still waits. -/
theorem poll_other_turn {p : CanRxTaskParam} {s s' : RxState} {es : List RxEvent} {inst mb : UInt8}
    (hnext : s.next < p.pollOrder.length) (hav : (s.available inst mb).isSome = true)
    (hp : poll p s = (s', es)) : framesRead inst mb es ≠ [] ∨
      ((s'.available inst mb).isSome = true ∧ s'.next = (s.next + 1) % p.pollOrder.length) := by
  rw [poll_eq (List.getElem?_eq_getElem hnext)] at hp
  generalize p.pollOrder[s.next] = r at hp
  have hmoved := next_mainFunctionRead (s.advance p) r.1 (p.mb r.1 r.2)
  rw [hp] at hmoved
  rcases mainFunctionRead_cases (s.advance p) r.1 (p.mb r.1 r.2) with
    ⟨hread, -⟩ | ⟨f, sent, hread, -, -, heff⟩
  · obtain ⟨rfl, rfl⟩ := Prod.mk.inj (hread.symm.trans hp)
    exact Or.inr ⟨hav, hmoved⟩
  · obtain ⟨rfl, rfl⟩ := Prod.mk.inj (hread.symm.trans hp)
    by_cases hsame : inst = r.1 ∧ mb = p.mb r.1 r.2
    · obtain ⟨rfl, rfl⟩ := hsame
      rw [framesRead_rxComplete]
      exact Or.inl (List.cons_ne_nil f [])
    · refine Or.inr ⟨?_, hmoved⟩
      rw [heff.available]
      show (if _ then none else _).isSome = true
      rw [if_neg hsame]
      exact hav

/-- A step reads the mailbox, or a frame that waits there still waits (or a newer one), and
a poll has brought its turn nearer. -/
theorem turn_step {p : CanRxTaskParam} {s s' : RxState} {j : RxInput} {es : List RxEvent} {k : Nat}
    {r : UInt8 × Nat} (hk : p.pollOrder[k]? = some r) (hmb : p.mb r.1 r.2 < maxMbNum) (h : Polling p s)
    (hav : (s.available r.1 (p.mb r.1 r.2)).isSome = true)
    (hs : (canReceivePollingTask p).step s j = some (s', es)) :
    framesRead r.1 (p.mb r.1 r.2) es ≠ [] ∨
    ((s'.available r.1 (p.mb r.1 r.2)).isSome = true ∧
      turnsUntil p.pollOrder.length s'.next k + (if j.isPoll then 1 else 0) =
        turnsUntil p.pollOrder.length s.next k) := by
  cases j with
  | arrive inst mb f =>
    obtain ⟨rfl, -⟩ := Prod.mk.inj (Option.some.inj hs)
    refine Or.inr ⟨?_, rfl⟩
    show (if _ then some f else _).isSome = true
    split
    · rfl
    · exact hav
  | receive =>
    obtain ⟨rfl, -⟩ := Prod.mk.inj (Option.some.inj hs)
    exact Or.inr ⟨hav, rfl⟩
  | poll =>
    have hp : poll p s = (s', es) := Option.some.inj hs
    obtain ⟨hklt, -⟩ := List.getElem?_eq_some_iff.1 hk
    have hnext := h.next_lt (List.ne_nil_of_length_pos (Nat.zero_lt_of_lt hklt))
    by_cases hturn : s.next = k
    · rw [← hturn] at hk
      exact Or.inl (poll_own_turn hk hmb h hav hp)
    · rcases poll_other_turn hnext hav hp with hread | ⟨hav', hmoved⟩
      · exact Or.inl hread
      · refine Or.inr ⟨hav', ?_⟩
        rw [hmoved]
        exact turnsUntil_succ hklt hnext hturn

/-- **A frame that waits in a listening mailbox is read** by the time its turn comes. -/
theorem read_of_turn {p : CanRxTaskParam} {k : Nat} {r : UInt8 × Nat} (hk : p.pollOrder[k]? = some r)
    (hmb : p.mb r.1 r.2 < maxMbNum) {js : List RxInput} {s s' : RxState} {tr : List RxEvent} (h : Polling p s)
    (hav : (s.available r.1 (p.mb r.1 r.2)).isSome = true)
    (hcount : turnsUntil p.pollOrder.length s.next k < js.countP RxInput.isPoll)
    (hrun : (canReceivePollingTask p).run s js = some (s', tr)) : framesRead r.1 (p.mb r.1 r.2) tr ≠ [] := by
  induction js generalizing s tr with
  | nil => exact absurd hcount (Nat.not_lt_zero _)
  | cons j js ih =>
    obtain ⟨s₁, es, tr₁, hs, hr, rfl⟩ := ((canReceivePollingTask p).run_cons_eq_some _ _ _ _ _).1 hrun
    rw [framesRead_append]
    intro hnil
    obtain ⟨hes, htr⟩ := List.append_eq_nil_iff.1 hnil
    rcases turn_step hk hmb h hav hs with hread | ⟨hav₁, hnear⟩
    · exact hread hes
    · refine ih (polling_step h hs) hav₁ ?_ hr htr
      rw [List.countP_cons] at hcount
      omega

theorem inOrder_run {p : CanRxTaskParam} {js : List RxInput} {s s' : RxState} {tr : List RxEvent}
    (inst mb : UInt8) (hrun : (canReceivePollingTask p).run s js = some (s', tr)) : InOrder inst mb s tr s' := by
  refine (canReceivePollingTask p).run_invariant_always (fun s' tr => InOrder inst mb s tr s')
    (fun s₁ tr i s₂ es h hs => h.trans ?_) (.nil rfl) hrun
  cases i with
  | arrive i m f =>
    obtain ⟨rfl, rfl⟩ := Prod.mk.inj (Option.some.inj hs)
    exact inOrder_arrives s₁ i m f
  | receive =>
    have heq : queueReceive s₁ = (s₂, es) := Option.some.inj hs
    have hrecv := inOrder_receive inst mb s₁
    rwa [heq] at hrecv
  | poll =>
    have heq : poll p s₁ = (s₂, es) := Option.some.inj hs
    rcases poll_cases p s₁ with ⟨s₃, hp, hsame⟩ | ⟨s₃, s₄, i, m, f, sent, hp, hsame, hav, -, heff⟩
    · obtain ⟨rfl, rfl⟩ := Prod.mk.inj (hp.symm.trans heq)
      exact .nil (by rw [hsame])
    · obtain ⟨rfl, rfl⟩ := Prod.mk.inj (hp.symm.trans heq)
      have hmoved : InOrder inst mb s₁ [] s₃ := .nil (by rw [hsame])
      exact hmoved.trans (inOrder_read hav heff)

/-- **A polled mailbox never goes deaf.**  After the initialisation loop and after every
step of every run each polled mailbox of both instances is listening.  A frame that waits
there is read by the mailbox's next poll, with one callback; in every continuation with a
round of polls the mailbox is read; and unless a newer frame overwrites it, the frame is
read first, once, with what has arrived since behind it. -/
theorem polled_mailboxes_listen (p : CanRxTaskParam) (handlerData : FlexcanIpMsgBuff) (capacity : Nat)
    (is : List RxInput) (s : RxState) (tr : List RxEvent)
    (hrun : (canReceivePollingTask p).run (.start p handlerData capacity) is = some (s, tr)) :
    AllListening p s ∧
    ∀ r ∈ p.pollOrder, p.mb r.1 r.2 < maxMbNum → ∀ f, s.available r.1 (p.mb r.1 r.2) = some f →
      (∃ s' sent, flexcanIpMainFunctionRead s r.1 (p.mb r.1 r.2) =
          (s', [.rxComplete r.1 (p.mb r.1 r.2) f sent]) ∧ s'.available r.1 (p.mb r.1 r.2) = none) ∧
      ∀ js s' tr', (canReceivePollingTask p).run s js = some (s', tr') →
        p.pollOrder.length ≤ js.countP RxInput.isPoll →
        framesRead r.1 (p.mb r.1 r.2) tr' ≠ [] ∧
        (framesLost r.1 (p.mb r.1 r.2) tr' = [] →
          f :: framesArrived r.1 (p.mb r.1 r.2) tr' =
            framesRead r.1 (p.mb r.1 r.2) tr' ++ (s'.available r.1 (p.mb r.1 r.2)).toList) := by
  have h := polling_run hrun
  refine ⟨h.listening, fun r hr hmb f hf => ⟨read_of_listening (h.listening r hr hmb) hf, ?_⟩⟩
  intro js s' tr' hrun' hround
  obtain ⟨k, hk⟩ := List.mem_iff_getElem?.1 hr
  obtain ⟨hklt, -⟩ := List.getElem?_eq_some_iff.1 hk
  have hnext := h.next_lt (List.ne_nil_of_mem hr)
  refine ⟨read_of_turn hk hmb h (by rw [hf]; rfl)
    (Nat.lt_of_lt_of_le (turnsUntil_lt hklt hnext) hround) hrun', fun hlost => ?_⟩
  have hkept := inOrder_run r.1 (p.mb r.1 r.2) hrun' hlost
  rwa [hf] at hkept

theorem rxp_mb_lt : ∀ r ∈ rxp.pollOrder, rxp.mb r.1 r.2 < maxMbNum := by decide

/-- The shipped parameters, a queue that takes nothing, and a frame in mailbox 1 of
instance 1. -/
theorem polled_mailboxes_listen_full :
    ∃ s tr, (canReceivePollingTask rxp).run (.start rxp .zero 0) [.arrive 1 1 .zero, .poll] = some (s, tr) ∧
      AllListening rxp s ∧
      ∀ s' tr', (canReceivePollingTask rxp).run s [.poll, .poll, .poll, .poll] = some (s', tr') →
        framesRead 1 1 tr' ≠ [] := by
  obtain ⟨s, tr, hrun, hav⟩ : ∃ s tr, (canReceivePollingTask rxp).run (.start rxp .zero 0)
      [.arrive 1 1 .zero, .poll] = some (s, tr) ∧ s.available 1 1 = some .zero := ⟨_, _, rfl, rfl⟩
  obtain ⟨hlisten, hread⟩ := polled_mailboxes_listen rxp .zero 0 _ s tr hrun
  refine ⟨s, tr, hrun, hlisten, fun s' tr' hrun' => ?_⟩
  exact ((hread (1, 1) (by decide) (rxp_mb_lt (1, 1) (by decide)) .zero hav).2 _ s' tr' hrun' (by decide)).1

end CanTsn
