import Mathlib.Logic.Function.Basic
import CanTsnGateway.Model.Gateway

/-!
# The transmit side of the Ethernet driver

A transmit ring is a list of descriptors with the position the next buffer is taken from
(`current`) and the one the next frame is sent with (`tail`).  `gmacGetTxBuff` locks a
descriptor and hands out its buffer, `gmacSendFrame` gives one to the DMA,
`gmacGetTransmitStatus` unlocks it when the DMA is done.  `EthRun d tr d'`: the driver
calls in the gateway's trace `tr` get the answers that the driver gives from `d` on, with
any amount of DMA and confirmation work in between.

    EthRun (EthTx.init buffer) tr d → every granted length in tr is 1522    (ethRun_granted)
-/

namespace CanTsn

def ethFrameHeaderLength : UInt16 := 14
def gmacTdes3OwnMask : UInt32 := 0x80000000
def gmacInfo1LockedMask : UInt32 := 0x10000000
def gmacInfo1LengthMask : UInt32 := 0x3FFF

/-! ## Rings -/

/-- `Gmac_Ip_BufferDescriptorType`, the words the transmit side reads back. -/
structure TxDesc where
  des0 : UInt32
  des3 : UInt32
  info0 : UInt32
  info1 : UInt32

structure TxRing where
  ringDesc : List TxDesc
  /-- `TxCurrentDesc` -/
  current : Nat
  /-- `DMA_TXDESC_TAIL_POINTER` -/
  tail : Nat

namespace TxRing

def bd (r : TxRing) (k : Nat) : TxDesc := r.ringDesc.getD k ⟨0, 0, 0, 0⟩

def next (r : TxRing) (k : Nat) : Nat := if k + 1 ≥ r.ringDesc.length then 0 else k + 1

def write (r : TxRing) (k : Nat) (b : TxDesc) : TxRing := { r with ringDesc := r.ringDesc.set k b }

/-- The DMA gives descriptor `k` back; it leaves a time stamp where the address was. -/
def dmaDone (r : TxRing) (k : Nat) (des0 des3 : UInt32) : TxRing :=
  let bd := r.bd k
  if bd.des3 &&& gmacTdes3OwnMask ≠ 0 then
    r.write k { bd with des0 := des0, des3 := des3 &&& ~~~gmacTdes3OwnMask }
  else r

end TxRing

/-- `&Buffer[BufferLen * j]` -/
def ringBuffer (buffer : UInt32) (bufferLen : UInt16) (j : Nat) : UInt32 :=
  buffer + bufferLen.toUInt32 * j.toUInt32

/-- `Gmac_Ip_InitTxBD`, one ring -/
def gmacInitTxBD (buffer : UInt32) (bufferLen : UInt16) (ringSize : Nat) : TxRing where
  ringDesc := (List.range ringSize).map fun j =>
    ⟨if buffer ≠ 0 then ringBuffer buffer bufferLen j else 0, 0, 0,
      bufferLen.toUInt32 &&& gmacInfo1LengthMask⟩
  current := 0
  tail := 0

inductive GmacStatus where
  | success
  | txBuffBusy
  | txBuffOverflow
deriving DecidableEq

/-- What `Gmac_Ip_GetTxBuff` returns and leaves in `*Buff` and `*BuffId`. -/
structure GmacGrant where
  status : GmacStatus
  data : UInt32
  length : UInt16
  buffId : Nat

/-- `Gmac_Ip_GetTxBuff`, asked for `length` bytes -/
def gmacGetTxBuff (r : TxRing) (length : UInt16) : GmacGrant × TxRing :=
  let bd := r.bd r.current
  if bd.des3 &&& gmacTdes3OwnMask ≠ 0 ∨ bd.info1 &&& gmacInfo1LockedMask ≠ 0 then
    (⟨.txBuffBusy, 0, length, 0⟩, r)
  else if length.toUInt32 > bd.info1 &&& gmacInfo1LengthMask then
    (⟨.txBuffOverflow, 0, (bd.info1 &&& gmacInfo1LengthMask).toUInt16, 0⟩, r)
  else
    (⟨.success, bd.des0, (bd.info1 &&& gmacInfo1LengthMask).toUInt16, r.current⟩,
      { r.write r.current { bd with info1 := bd.info1 ||| gmacInfo1LockedMask } with
        current := r.next r.current })

/-- `Gmac_Ip_SendFrame`: `false` when the queue is full.  The control bits beside OWN and
the length are written too; nothing here reads them back. -/
def gmacSendFrame (r : TxRing) (data : UInt32) (length : UInt16) : Bool × TxRing :=
  let bd := r.bd r.tail
  if bd.des3 &&& gmacTdes3OwnMask ≠ 0 then (false, r)
  else
    (true, { r.write r.tail { bd with
        des0 := data, info0 := data, des3 := length.toUInt32 ||| gmacTdes3OwnMask } with
      tail := r.next r.tail })

/-- `Gmac_Ip_GetTransmitStatus`: the first descriptor sent with this buffer is unlocked,
unless the DMA still owns it. -/
def gmacGetTransmitStatus (r : TxRing) (data : UInt32) : Bool × TxRing :=
  match (List.range r.ringDesc.length).find? fun k => (r.bd k).info0 = data with
  | none => (false, r)
  | some k =>
    let bd := r.bd k
    if bd.des3 &&& gmacTdes3OwnMask ≠ 0 then (false, r)
    else (true, r.write k { bd with
      des0 := bd.info0, info0 := 0, info1 := bd.info1 &&& ~~~gmacInfo1LockedMask })

/-! ## The driver -/

/-- `Eth_axTxBufferIdxMap[CtrlIdx][BufIdx]` -/
structure TxBufferIdx where
  fifoIdx : UInt8
  pu8BufferData : UInt32

structure EthTx where
  /-- the entry checks of the driver pass: `ETH_STATE_INIT` -/
  initialised : Bool
  /-- `ETH_MODE_ACTIVE` -/
  active : Bool
  ring : UInt8 → TxRing
  txBufferIdxMap : UInt32 → TxBufferIdx

/-- `VlanPcpToFifoIdx` as shipped -/
def vlanPcpToFifoIdx (priority : UInt8) : UInt8 := [0, 1, 2, 0, 0, 0, 0, 0].getD priority.toNat 0

def txRingSize (fifoIdx : UInt8) : Nat := if fifoIdx = 0 then 32 else 16

/-- `BufferLen` of every transmit ring -/
def txBufferLen : UInt16 := 1536

/-- `BufferCount` -/
def txBufferCount : UInt32 := 64

/-- `Eth_Ipw_axFirstTxBufferIdxInFifo` -/
def firstTxBufferIdxInFifo (fifoIdx : UInt8) : UInt32 :=
  if fifoIdx = 0 then 0 else if fifoIdx = 1 then 32 else 48

def EthTx.setRing (d : EthTx) (fifoIdx : UInt8) (r : TxRing) : EthTx :=
  { d with ring := Function.update d.ring fifoIdx r }

def EthTx.setBuffer (d : EthTx) (bufIdx : UInt32) (b : TxBufferIdx) : EthTx :=
  { d with txBufferIdxMap := Function.update d.txBufferIdxMap bufIdx b }

/-- After initialisation, with the data buffers of the rings at `buffer`. -/
def EthTx.init (buffer : UInt8 → UInt32) : EthTx where
  initialised := true
  active := true
  ring := fun fifoIdx => gmacInitTxBD (buffer fifoIdx) txBufferLen (txRingSize fifoIdx)
  txBufferIdxMap := fun _ => ⟨0, 0⟩

/-- `Eth_ProvideTxBuffer` over `Eth_Ipw_ProvideTxBuffer` -/
def ethProvideTxBuffer (d : EthTx) (priority : UInt8) (lenByte : UInt16) : BufReq × EthTx :=
  if d.initialised = false then (.refused .notOk lenByte, d)
  else if lenByte > 65535 - ethFrameHeaderLength then (.refused .ovfl lenByte, d)
  else
    let fifoIdx := vlanPcpToFifoIdx priority
    let (g, r) := gmacGetTxBuff (d.ring fifoIdx) (lenByte + ethFrameHeaderLength)
    let frameLength := g.length
    match g.status with
    | .success =>
      let bufIdx := firstTxBufferIdxInFifo fifoIdx + g.buffId.toUInt32
      (.granted bufIdx (g.data + ethFrameHeaderLength.toUInt32) (frameLength - ethFrameHeaderLength),
        (d.setRing fifoIdx r).setBuffer bufIdx ⟨fifoIdx, g.data⟩)
    | .txBuffBusy => (.refused .busy (frameLength - ethFrameHeaderLength), d)
    | .txBuffOverflow => (.refused .ovfl (frameLength - ethFrameHeaderLength), d)

/-- `Eth_Transmit` over `Eth_Ipw_Transmit` -/
def ethTransmit (d : EthTx) (bufIdx : UInt32) (lenByte : UInt16) : Bool × EthTx :=
  if d.initialised = false ∨ d.active = false then (false, d)
  else if bufIdx ≥ txBufferCount ∨ (d.txBufferIdxMap bufIdx).pu8BufferData = 0 then (false, d)
  else
    let b := d.txBufferIdxMap bufIdx
    let (ok, r) := gmacSendFrame (d.ring b.fifoIdx) b.pu8BufferData (lenByte + ethFrameHeaderLength)
    (ok, d.setRing b.fifoIdx r)

/-- What happens to the driver beside the gateway. -/
inductive EthEnv : EthTx → EthTx → Prop
  | dmaDone (d : EthTx) (fifoIdx : UInt8) (k : Nat) (des0 des3 : UInt32) :
      EthEnv d (d.setRing fifoIdx ((d.ring fifoIdx).dmaDone k des0 des3))
  /-- `Eth_ReportTransmission` asks for the status of a buffer … -/
  | report (d : EthTx) (b : TxBufferIdx) :
      EthEnv d (d.setRing b.fifoIdx (gmacGetTransmitStatus (d.ring b.fifoIdx) b.pu8BufferData).2)
  /-- … and forgets it when it is done. -/
  | release (d : EthTx) (bufIdx : UInt32) (fifoIdx : UInt8) : EthEnv d (d.setBuffer bufIdx ⟨fifoIdx, 0⟩)
  /-- The controller is started or stopped. -/
  | setMode (d : EthTx) (active : Bool) : EthEnv d { d with active := active }

/-- The driver gives the answers of the trace. -/
inductive EthRun : EthTx → List GwEvent → EthTx → Prop
  | nil (d : EthTx) : EthRun d [] d
  | env {d d₁ d₂ : EthTx} {tr : List GwEvent} (h : EthEnv d d₁) (hrun : EthRun d₁ tr d₂) :
      EthRun d tr d₂
  | provided {d d₁ d₂ : EthTx} {tr : List GwEvent} {priority : UInt8} {lenByte : UInt16} {res : BufReq}
      (h : ethProvideTxBuffer d priority lenByte = (res, d₁)) (hrun : EthRun d₁ tr d₂) :
      EthRun d (.provided priority lenByte res :: tr) d₂
  | transmitted {d d₁ d₂ : EthTx} {tr : List GwEvent} {bufIdx : UInt32} {lenByte : UInt16} {ok : Bool}
      (h : ethTransmit d bufIdx lenByte = (ok, d₁)) (hrun : EthRun d₁ tr d₂) :
      EthRun d (.transmitted bufIdx lenByte ok :: tr) d₂
  | other {d d₂ : EthTx} {e : GwEvent} {tr : List GwEvent}
      (hprovided : ∀ priority lenByte res, e ≠ .provided priority lenByte res)
      (htransmitted : ∀ bufIdx lenByte ok, e ≠ .transmitted bufIdx lenByte ok)
      (hrun : EthRun d tr d₂) : EthRun d (e :: tr) d₂

/-! ## The length of a granted buffer -/

/-- Every descriptor of the ring has the length of a ring buffer. -/
def RingOk (r : TxRing) : Prop := ∀ b ∈ r.ringDesc, b.info1 &&& gmacInfo1LengthMask = 1536

theorem length_of_lock (x : UInt32) :
    (x ||| gmacInfo1LockedMask) &&& gmacInfo1LengthMask = x &&& gmacInfo1LengthMask := by
  apply UInt32.toNat_inj.1
  have hmask : gmacInfo1LengthMask.toNat = 2 ^ 14 - 1 := rfl
  have hlock : gmacInfo1LockedMask.toNat % 2 ^ 14 = 0 := rfl
  rw [UInt32.toNat_and, UInt32.toNat_and, UInt32.toNat_or, hmask, Nat.and_two_pow_sub_one_eq_mod,
    Nat.and_two_pow_sub_one_eq_mod, Nat.or_mod_two_pow, hlock, Nat.or_zero]

theorem length_of_unlock (x : UInt32) :
    (x &&& ~~~gmacInfo1LockedMask) &&& gmacInfo1LengthMask = x &&& gmacInfo1LengthMask := by
  rw [UInt32.and_assoc]
  rfl

theorem ringOk_write {r : TxRing} (h : RingOk r) (k : Nat) (b : TxDesc)
    (hb : b.info1 &&& gmacInfo1LengthMask = (r.bd k).info1 &&& gmacInfo1LengthMask) :
    RingOk (r.write k b) := by
  intro c hc
  rcases Nat.lt_or_ge k r.ringDesc.length with hk | hk
  · rcases List.mem_or_eq_of_mem_set hc with hc | rfl
    · exact h c hc
    · rw [hb]
      unfold TxRing.bd
      rw [List.getD_eq_getElem?_getD, List.getElem?_eq_getElem hk, Option.getD_some]
      exact h _ (List.getElem_mem hk)
  · -- a write past the end changes nothing
    unfold TxRing.write at hc
    rw [List.set_eq_of_length_le hk] at hc
    exact h c hc

theorem ringOk_init (buffer : UInt32) (ringSize : Nat) :
    RingOk (gmacInitTxBD buffer txBufferLen ringSize) := by
  intro b hb
  obtain ⟨j, -, rfl⟩ := List.mem_map.1 hb
  show txBufferLen.toUInt32 &&& gmacInfo1LengthMask &&& gmacInfo1LengthMask = 1536
  decide

theorem ringOk_dmaDone {r : TxRing} (h : RingOk r) (k : Nat) (des0 des3 : UInt32) :
    RingOk (r.dmaDone k des0 des3) := by
  unfold TxRing.dmaDone
  simp only
  split
  · exact ringOk_write h k _ rfl
  · exact h

theorem ringOk_sendFrame {r : TxRing} (h : RingOk r) (data : UInt32) (length : UInt16) :
    RingOk (gmacSendFrame r data length).2 := by
  unfold gmacSendFrame
  simp only
  split
  · exact h
  · exact ringOk_write h r.tail _ rfl

theorem ringOk_getTransmitStatus {r : TxRing} (h : RingOk r) (data : UInt32) :
    RingOk (gmacGetTransmitStatus r data).2 := by
  unfold gmacGetTransmitStatus
  split
  · exact h
  · next k _ =>
    simp only
    split
    · exact h
    · exact ringOk_write h k _ (length_of_unlock _)

/-- A successful request gets a whole ring buffer. -/
theorem ringOk_getTxBuff {r : TxRing} (h : RingOk r) (length : UInt16) (hpos : 0 < length) :
    RingOk (gmacGetTxBuff r length).2 ∧
      ((gmacGetTxBuff r length).1.status = .success → (gmacGetTxBuff r length).1.length = 1536) := by
  unfold gmacGetTxBuff
  simp only
  split
  · exact ⟨h, fun hs => by cases hs⟩
  · split
    · exact ⟨h, fun hs => by cases hs⟩
    · next hfit =>
      refine ⟨ringOk_write h r.current _ (length_of_lock _), fun _ => ?_⟩
      show ((r.bd r.current).info1 &&& gmacInfo1LengthMask).toUInt16 = 1536
      rcases Nat.lt_or_ge r.current r.ringDesc.length with hk | hk
      · have hbd : r.bd r.current ∈ r.ringDesc := by
          unfold TxRing.bd
          rw [List.getD_eq_getElem?_getD, List.getElem?_eq_getElem hk, Option.getD_some]
          exact List.getElem_mem hk
        rw [h _ hbd]
        rfl
      · -- no descriptor, no room
        refine absurd ?_ hfit
        unfold TxRing.bd
        rw [List.getD_eq_getElem?_getD, List.getElem?_eq_none hk]
        apply UInt32.lt_iff_toNat_lt.2
        rw [UInt16.toNat_toUInt32]
        exact UInt16.lt_iff_toNat_lt.1 hpos

/-- Every ring keeps the buffer length. -/
def EthTx.LengthOk (d : EthTx) : Prop := ∀ fifoIdx, RingOk (d.ring fifoIdx)

theorem lengthOk_init (buffer : UInt8 → UInt32) : (EthTx.init buffer).LengthOk :=
  fun fifoIdx => ringOk_init (buffer fifoIdx) (txRingSize fifoIdx)

theorem EthTx.LengthOk.setRing {d : EthTx} (h : d.LengthOk) {fifoIdx : UInt8} {r : TxRing}
    (hr : RingOk r) : (d.setRing fifoIdx r).LengthOk := by
  intro f
  show RingOk (Function.update d.ring fifoIdx r f)
  rcases eq_or_ne f fifoIdx with rfl | hf
  · rwa [Function.update_self]
  · rw [Function.update_of_ne hf]; exact h f

theorem EthTx.LengthOk.provide {d d₁ : EthTx} (h : d.LengthOk) {priority : UInt8} {lenByte : UInt16}
    {res : BufReq} (hp : ethProvideTxBuffer d priority lenByte = (res, d₁)) :
    d₁.LengthOk ∧ ∀ bufIdx ethPayload n, res = .granted bufIdx ethPayload n → n = 1522 := by
  unfold ethProvideTxBuffer at hp
  split at hp
  · cases hp; exact ⟨h, fun _ _ _ hx => by cases hx⟩
  · split at hp
    · cases hp; exact ⟨h, fun _ _ _ hx => by cases hx⟩
    · next hle =>
      have hpos : 0 < lenByte + ethFrameHeaderLength := by
        have h14 : ethFrameHeaderLength.toNat = 14 := rfl
        have hmax : (65535 - ethFrameHeaderLength).toNat = 65521 := rfl
        have := UInt16.not_lt.1 hle
        rw [UInt16.le_iff_toNat_le, hmax] at this
        apply UInt16.lt_iff_toNat_lt.2
        rw [UInt16.toNat_add, h14, UInt16.toNat_zero]
        omega
      obtain ⟨hring, hlen⟩ := ringOk_getTxBuff (h (vlanPcpToFifoIdx priority)) _ hpos
      simp only at hp
      split at hp
      · next hs =>
        cases hp
        refine ⟨h.setRing hring, ?_⟩
        rintro _ _ _ ⟨rfl, rfl, rfl⟩
        rw [hlen hs]
        rfl
      · cases hp; exact ⟨h, fun _ _ _ hx => by cases hx⟩
      · cases hp; exact ⟨h, fun _ _ _ hx => by cases hx⟩

theorem EthTx.LengthOk.transmit {d d₁ : EthTx} (h : d.LengthOk) {bufIdx : UInt32} {lenByte : UInt16}
    {ok : Bool} (ht : ethTransmit d bufIdx lenByte = (ok, d₁)) : d₁.LengthOk := by
  unfold ethTransmit at ht
  split at ht
  · cases ht; exact h
  · split at ht
    · cases ht; exact h
    · simp only at ht
      cases ht
      exact h.setRing (ringOk_sendFrame (h _) _ _)

theorem EthTx.LengthOk.env {d d₁ : EthTx} (h : d.LengthOk) (he : EthEnv d d₁) : d₁.LengthOk := by
  cases he with
  | dmaDone fifoIdx k des0 des3 => exact h.setRing (ringOk_dmaDone (h fifoIdx) k des0 des3)
  | report b => exact h.setRing (ringOk_getTransmitStatus (h b.fifoIdx) b.pu8BufferData)
  | release bufIdx fifoIdx => exact h
  | setMode active => exact h

/-- **The granted length** is that of a ring buffer less the Ethernet header, whatever
happens to the rings in between. -/
theorem ethRun_granted {d d' : EthTx} {tr : List GwEvent} (hrun : EthRun d tr d') (h : d.LengthOk) :
    ∀ priority lenByte bufIdx ethPayload n,
      .provided priority lenByte (.granted bufIdx ethPayload n) ∈ tr → n = 1522 := by
  induction hrun with
  | nil => intro _ _ _ _ _ hmem; cases hmem
  | env he _ ih => exact ih (h.env he)
  | provided hp _ ih =>
    obtain ⟨h₁, hlen⟩ := h.provide hp
    intro priority lenByte bufIdx ethPayload n hmem
    rcases List.mem_cons.1 hmem with heq | hmem
    · cases heq; exact hlen _ _ _ rfl
    · exact ih h₁ _ _ _ _ _ hmem
  | transmitted ht _ ih =>
    intro priority lenByte bufIdx ethPayload n hmem
    rcases List.mem_cons.1 hmem with heq | hmem
    · cases heq
    · exact ih (h.transmit ht) _ _ _ _ _ hmem
  | other hprovided _ _ ih =>
    intro priority lenByte bufIdx ethPayload n hmem
    rcases List.mem_cons.1 hmem with heq | hmem
    · exact absurd heq.symm (hprovided _ _ _)
    · exact ih h _ _ _ _ _ hmem

end CanTsn
