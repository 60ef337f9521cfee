/-!
# CAN messages and the PDUs they become

`FlexcanIpMsgBuff` is the driver's message buffer; `CanFrame` is a frame on the bus,
whose data has at most 64 bytes.  The receive queue carries message buffers.
-/

namespace CanTsn

/-- `Flexcan_Ip_MsgBuffType` (without `cs`, `id_hit` and `time_stamp`, which the
gateway never reads). -/
structure FlexcanIpMsgBuff where
  msgId : UInt32
  data : List UInt8
  dataLen : UInt8
  length_data : data.length = 64

namespace FlexcanIpMsgBuff

/-- A buffer as `memset` or static storage leaves it. -/
def zero : FlexcanIpMsgBuff := ⟨0, List.replicate 64 0, 0, List.length_replicate⟩

/-- A message with `len` zero bytes. -/
def blank (id : UInt32) (len : UInt8) : FlexcanIpMsgBuff :=
  ⟨id, List.replicate 64 0, len, List.length_replicate⟩

/-- Byte `k` read through `&rxData.data[0]`; past the array it is whatever memory holds
there (`beyond`). -/
def dataByte (m : FlexcanIpMsgBuff) (beyond : Nat → UInt8) (k : Nat) : UInt8 :=
  m.data.getD k (beyond k)

/-- The `dataLen` bytes that `memcpy` reads from `&rxData.data[0]`. -/
def readData (m : FlexcanIpMsgBuff) (beyond : Nat → UInt8) : List UInt8 :=
  (List.range m.dataLen.toNat).map (m.dataByte beyond)

theorem length_readData (m : FlexcanIpMsgBuff) (beyond : Nat → UInt8) :
    (m.readData beyond).length = m.dataLen.toNat := by simp [readData]

/-- The message's own data bytes. -/
def payload (m : FlexcanIpMsgBuff) : List UInt8 := m.data.take m.dataLen.toNat

theorem length_payload (m : FlexcanIpMsgBuff) (h : m.dataLen ≤ 64) :
    m.payload.length = m.dataLen.toNat := by
  have h64 : m.dataLen.toNat ≤ 64 := h
  unfold payload
  rw [List.length_take, m.length_data]
  omega

theorem length_payload_lt (m : FlexcanIpMsgBuff) : m.payload.length < 256 := by
  have := m.dataLen.toNat_lt
  unfold payload
  rw [List.length_take]
  omega

/-- Up to 64 bytes the copy stays in the array. -/
theorem readData_eq_payload (m : FlexcanIpMsgBuff) (beyond : Nat → UInt8) (h : m.dataLen ≤ 64) :
    m.readData beyond = m.payload := by
  have h64 : m.dataLen.toNat ≤ 64 := h
  apply List.ext_getElem
  · rw [length_readData, length_payload m h]
  · intro k hk hk'
    rw [length_readData] at hk
    have hdata : k < m.data.length := by rw [m.length_data]; omega
    simp only [readData, payload, dataByte, List.getElem_map, List.getElem_range, List.getElem_take]
    rw [List.getD_eq_getElem?_getD, List.getElem?_eq_getElem hdata, Option.getD_some]

end FlexcanIpMsgBuff

/-- A CAN FD frame on the bus. -/
structure CanFrame where
  msgId : UInt32
  data : List UInt8
  length_le : data.length ≤ 64
deriving DecidableEq

/-- The frame with identifier 0 and no data. -/
def CanFrame.zero : CanFrame := ⟨0, [], Nat.zero_le _⟩

/-- The buffer holds the frame: same identifier, same length, same data bytes. -/
def FlexcanIpMsgBuff.Carries (m : FlexcanIpMsgBuff) (f : CanFrame) : Prop :=
  m.msgId = f.msgId ∧ m.dataLen.toNat = f.data.length ∧ m.data.take f.data.length = f.data

instance (m : FlexcanIpMsgBuff) (f : CanFrame) : Decidable (m.Carries f) :=
  inferInstanceAs (Decidable (_ ∧ _))

/-- A buffer holds at most one frame. -/
theorem FlexcanIpMsgBuff.Carries.unique {m : FlexcanIpMsgBuff} {f g : CanFrame}
    (hf : m.Carries f) (hg : m.Carries g) : f = g := by
  obtain ⟨hf1, hf2, hf3⟩ := hf
  obtain ⟨hg1, hg2, hg3⟩ := hg
  have hlen : f.data.length = g.data.length := hf2.symm.trans hg2
  cases f with
  | mk fid fdata flen =>
    cases g with
    | mk gid gdata glen =>
      simp only at hf1 hf3 hg1 hg3 hlen
      have hid : fid = gid := hf1.symm.trans hg1
      have hdata : fdata = gdata := by rw [← hf3, ← hg3, hlen]
      subst hid hdata
      rfl

/-- One I-PDU of a container. -/
structure Pdu where
  pduId : UInt16
  data : List UInt8
  length_lt : data.length < 256

theorem Pdu.ext {p r : Pdu} (hid : p.pduId = r.pduId) (hdata : p.data = r.data) : p = r := by
  cases p; cases r
  simp only at hid hdata
  subst hid hdata
  rfl

end CanTsn
