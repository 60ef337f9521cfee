import CanTsnGateway.Lib.StepMachine
import CanTsnGateway.Lib.WordBytes
import CanTsnGateway.Model.CanMessage

/-!
# Message buffers in the controller's RAM

`FlexcanIpMsgBuff` and `CanFrame` say what a message buffer is for.  In the controller it is
a code and status word, an identifier word and up to 64 bytes of data, with the bytes of
every data word the other way round.  The RAM is in blocks of 512 bytes with a payload size
each; an expanded RAM of message buffers of 64 bytes follows at another address.

A failed `DevAssert` does not come back (`none`).
-/

namespace CanTsn

open ByteMemory StepMachine

/-! ## Where a message buffer is -/

/-- `Flexcan_Ip_FdPayloadSizeType` -/
inductive FdPayloadSize where
  | payloadSize8
  | payloadSize16
  | payloadSize32
  | payloadSize64
deriving DecidableEq

/-- The value of an MBDSR field. -/
def FdPayloadSize.field : FdPayloadSize → UInt32
  | .payloadSize8 => 0
  | .payloadSize16 => 1
  | .payloadSize32 => 2
  | .payloadSize64 => 3

/-- `FLEXCAN_Type`: where the controller is, the MBDSR fields of FDCTRL, and whether it is
one of those with expandable memory. -/
structure FlexcanType where
  base : UInt32
  mbdsr : UInt8 → FdPayloadSize
  hasExpandableMemory : Bool

def featureRamOffset : UInt32 := 0x80
def featureExpRamOffset : UInt32 := 0x1000
def featureMbdsrCount : UInt8 := 4
def ram1nCount : UInt32 := 512

/-- `FlexCAN_GetPayloadSize` -/
def flexcanGetPayloadSize (t : FlexcanType) (mbdsrIdx : UInt8) : UInt8 :=
  ((8 : UInt32) <<< (t.mbdsr (if mbdsrIdx < featureMbdsrCount then mbdsrIdx else 0)).field).toUInt8

/-- The local variables of `FlexCAN_GetMsgBuffRegion`. -/
structure RegionScan where
  ramBlockOffset : UInt16
  msgBuffIdxBackup : UInt8
  mbSize : UInt8
  maxMbNum : UInt8

def arbitrationFieldSize : UInt8 := 8
def ramBlockSize : UInt32 := 512

/-- The loop over the blocks; `false` when it does not end with `break`. -/
def regionLoop (t : FlexcanType) : List UInt8 → RegionScan → Bool × RegionScan
  | [], s => (false, s)
  | i :: is, s =>
    let mbSize := flexcanGetPayloadSize t i + arbitrationFieldSize
    let maxMbNum := (ramBlockSize / mbSize.toUInt32).toUInt8
    if maxMbNum > s.msgBuffIdxBackup then (true, { s with mbSize := mbSize, maxMbNum := maxMbNum })
    else regionLoop t is ⟨s.ramBlockOffset + 128, s.msgBuffIdxBackup - maxMbNum, mbSize, maxMbNum⟩

/-- `i` from 0 to `FLEXCAN_IP_FEATURE_MBDSR_COUNT` -/
def ramBlocks : List UInt8 := [0, 1, 2, 3]

/-- `FlexCAN_GetMsgBuffRegion` -/
def flexcanGetMsgBuffRegion (t : FlexcanType) (msgBuffIdx : UInt32) : UInt32 :=
  let (found, s) := regionLoop t ramBlocks ⟨0, msgBuffIdx.toUInt8, 0, 0⟩
  let backup := s.msgBuffIdxBackup.toUInt32
  if found = false ∧ t.hasExpandableMemory then
    let mbWords := (72 : UInt32) >>> (2 : UInt32)
    let mbIndex := (backup / 7) * 128 + (backup % 7) * mbWords
    t.base + featureExpRamOffset + 4 * mbIndex
  else
    let mbIndex : UInt32 := s.ramBlockOffset.toUInt32 + (backup % s.maxMbNum.toUInt32) * (s.mbSize.toUInt32 >>> 2)
    t.base + featureRamOffset + 4 * mbIndex

/-- The loop of `FlexCAN_GetMbPayloadSize` with `canRealPayload` and `maxMbBlockNum`. -/
def payloadLoop (t : FlexcanType) (maxMsgBuffNum : UInt32) : List UInt8 → UInt8 → UInt8 → Bool × UInt8
  | [], canRealPayload, _ => (false, canRealPayload)
  | i :: is, _, maxMbBlockNum =>
    let canRealPayload := flexcanGetPayloadSize t i
    let mbSize := canRealPayload + arbitrationFieldSize
    let maxMbBlockNum := maxMbBlockNum + (ramBlockSize / mbSize.toUInt32).toUInt8
    if maxMbBlockNum.toUInt32 > maxMsgBuffNum then (true, canRealPayload)
    else payloadLoop t maxMsgBuffNum is canRealPayload maxMbBlockNum

/-- `FlexCAN_GetMbPayloadSize` -/
def flexcanGetMbPayloadSize (t : FlexcanType) (maxMsgBuffNum : UInt32) : UInt8 :=
  match payloadLoop t maxMsgBuffNum ramBlocks 8 0 with
  | (true, canRealPayload) => canRealPayload
  | (false, _) => 64

/-! ## Lengths -/

/-- `payload_code` of `FlexCAN_ComputeDLCValue` -/
def payloadCode : List UInt8 :=
  [0, 1, 2, 3, 4, 5, 6, 7, 8] ++ List.replicate 4 9 ++ List.replicate 4 10 ++ List.replicate 4 11 ++
    List.replicate 4 12 ++ List.replicate 8 13 ++ List.replicate 16 14 ++ List.replicate 16 15

/-- `FlexCAN_ComputeDLCValue` -/
def flexcanComputeDlcValue (payloadSize : UInt8) : UInt8 :=
  if payloadSize ≤ 64 then payloadCode.getD payloadSize.toNat 0 else 0xFF

/-- `FlexCAN_ComputePayloadSize` -/
def flexcanComputePayloadSize (dlcValue : UInt8) : UInt8 :=
  if dlcValue ≤ 8 then dlcValue
  else
    match dlcValue with
    | 9 => 12
    | 10 => 16
    | 11 => 20
    | 12 => 24
    | 13 => 32
    | 14 => 48
    | 15 => 64
    | _ => 8

theorem flexcanComputePayloadSize_le (dlcValue : UInt8) : flexcanComputePayloadSize dlcValue ≤ 64 := by
  unfold flexcanComputePayloadSize
  split
  · next h => exact UInt8.le_trans h (by decide)
  · split <;> decide

/-! ## Words and bytes -/

/-- `FLEXCAN_IP_REV_BYTES_32` -/
def revBytes32 (a : UInt32) : UInt32 :=
  ((a &&& 0xFF000000) >>> 24) ||| ((a &&& 0xFF0000) >>> 8) ||| ((a &&& 0xFF00) <<< 8) ||| ((a &&& 0xFF) <<< 24)

/-- `FLEXCAN_IP_SWAP_BYTES_IN_WORD_INDEX` -/
def swapBytesInWordIndex (index : UInt32) : UInt32 := (index &&& ~~~3) + (3 - (index &&& 3))

def csDlcMask : UInt32 := 0xF0000
def csDlcShift : UInt32 := 16
def csRtrMask : UInt32 := 0x100000
def csIdeMask : UInt32 := 0x200000
def csSrrMask : UInt32 := 0x400000
def csCodeMask : UInt32 := 0xF000000
def csCodeShift : UInt32 := 24
def csTimeStampMask : UInt32 := 0xFFFF
def mbEdlMask : UInt32 := 0x80000000
def mbBrsMask : UInt32 := 0x40000000
def idStdMask : UInt32 := 0x1FFC0000
def idStdShift : UInt32 := 18
def idExtMask : UInt32 := 0x3FFFF

def txInactive : UInt32 := 0x08
def txData : UInt32 := 0x0C
def txRemote : UInt32 := 0x1C
def txNotUsed : UInt32 := 0xF
def rxInactive : UInt32 := 0x0
def rxEmpty : UInt32 := 0x4
def rxNotUsed : UInt32 := 0xF

/-- `Flexcan_Ip_MsgBuffIdType` -/
inductive MsgBuffIdType where
  | msgIdStd
  | msgIdExt
deriving DecidableEq

/-- `Flexcan_Ip_MsbuffCodeStatusType` -/
structure MsbuffCodeStatus where
  code : UInt32
  msgIdType : MsgBuffIdType
  dataLen : UInt32
  fdEnable : Bool
  fdPadding : UInt8
  enableBrs : Bool
deriving DecidableEq

/-! ## Writing -/

/-- `&Flexcan_Mb_Data[FLEXCAN_IP_SWAP_BYTES_IN_WORD_INDEX(index)]` -/
def mbByte (mb index : UInt32) : UInt32 := mb + 8 + swapBytesInWordIndex index

/-- `MsgData_32[k]` -/
def msgWord (msgData : List UInt8) (k : Nat) : UInt32 := WordBytes.ofBytes ((msgData.drop (4 * k)).take 4)

/-- The copy of `FlexCAN_SetTxMsgBuff`: whole words, then bytes, then the padding. -/
def copyTxData (m : Memory) (mb : UInt32) (cs : MsbuffCodeStatus) (msgData : List UInt8) : Memory :=
  let words := cs.dataLen.toNat / 4
  let m := (List.range words).foldl
    (fun m k => WordBytes.store m (mb + 8 + UInt32.ofNat (4 * k)) (revBytes32 (msgWord msgData k))) m
  let m := (List.range' (4 * words) (cs.dataLen.toNat - 4 * words)).foldl
    (fun m i => Function.update m (mbByte mb (UInt32.ofNat i)) (msgData.getD i 0)) m
  let payloadSize := (flexcanComputePayloadSize (flexcanComputeDlcValue cs.dataLen.toUInt8)).toNat
  (List.range' cs.dataLen.toNat (payloadSize - cs.dataLen.toNat)).foldl
    (fun m i => Function.update m (mbByte mb (UInt32.ofNat i)) cs.fdPadding) m

/-- `*Flexcan_Mb_Id` after the two assignments for the identifier's type. -/
def idWord (id : UInt32) (msgIdType : MsgBuffIdType) (msgId : UInt32) : UInt32 :=
  match msgIdType with
  | .msgIdExt => (id &&& ~~~(idStdMask ||| idExtMask)) ||| (msgId &&& (idStdMask ||| idExtMask))
  | .msgIdStd => (id &&& ~~~idStdMask) ||| ((msgId <<< idStdShift) &&& idStdMask)

/-- `Flexcan_Mb_Config` before the code is set. -/
def txConfig (cs : MsbuffCodeStatus) : UInt32 :=
  let dlcValue := flexcanComputeDlcValue cs.dataLen.toUInt8
  let config := match cs.msgIdType with
    | .msgIdExt => 0 ||| (csIdeMask ||| csSrrMask)
    | .msgIdStd => 0 &&& ~~~(csIdeMask ||| csSrrMask)
  (config &&& ~~~csDlcMask) ||| ((dlcValue.toUInt32 <<< csDlcShift) &&& csDlcMask)

/-- `Flexcan_Mb_Config` at the end. -/
def txCodeWord (cs : MsbuffCodeStatus) (isRemote : Bool) : UInt32 :=
  let config := txConfig cs
  let config := if cs.code = txRemote ∨ isRemote then config ||| csRtrMask else config
  let config := config &&& ~~~csCodeMask
  let config :=
    if cs.fdEnable then
      (config ||| ((cs.code <<< csCodeShift) &&& csCodeMask) ||| mbEdlMask) &&& ~~~csRtrMask
    else config ||| ((cs.code <<< csCodeShift) &&& csCodeMask)
  if cs.enableBrs then config ||| mbBrsMask else config

/-- `FlexCAN_SetTxMsgBuff`; `msgData = none` is `NULL_PTR`. -/
def flexcanSetTxMsgBuff (m : Memory) (pMbAddr : UInt32) (cs : MsbuffCodeStatus) (msgId : UInt32)
    (msgData : Option (List UInt8)) (isRemote : Bool) : Memory :=
  let m := WordBytes.store m pMbAddr (((txInactive &&& 0x1F) <<< csCodeShift) &&& csCodeMask)
  let m := WordBytes.store m (pMbAddr + 4) 0
  let m := match msgData with
    | some msgData => copyTxData m pMbAddr cs msgData
    | none => m
  let m := WordBytes.store m (pMbAddr + 4) (idWord (WordBytes.load m (pMbAddr + 4)) cs.msgIdType msgId)
  if cs.code ≠ txNotUsed then WordBytes.store m pMbAddr (txCodeWord cs isRemote) else m

/-- `FlexCAN_SetRxMsgBuff` at the message buffer `mb` -/
def flexcanSetRxMsgBuff (m : Memory) (mb : UInt32) (cs : MsbuffCodeStatus) (msgId : UInt32) : Memory :=
  let m := WordBytes.store m mb 0
  let m := WordBytes.store m (mb + 4) 0
  let m := match cs.msgIdType with
    | .msgIdExt => WordBytes.store m mb ((WordBytes.load m mb ||| csIdeMask) &&& ~~~csSrrMask)
    | .msgIdStd => WordBytes.store m mb (WordBytes.load m mb &&& ~~~(csIdeMask ||| csSrrMask))
  let m := WordBytes.store m (mb + 4) (idWord (WordBytes.load m (mb + 4)) cs.msgIdType msgId)
  if cs.code ≠ rxNotUsed then
    WordBytes.store m mb ((WordBytes.load m mb &&& ~~~csCodeMask) ||| ((cs.code <<< csCodeShift) &&& csCodeMask))
  else m

/-! ## Reading -/

/-- What `FlexCAN_GetMsgBuff` leaves in `*msgBuff`. -/
structure MsgBuffRead where
  cs : UInt32
  timeStamp : UInt32
  msgBuff : FlexcanIpMsgBuff

/-- The bytes that the two loops read, words first. -/
def readMbData (m : Memory) (mb : UInt32) (payloadSize : Nat) : List UInt8 :=
  let words := payloadSize / 4
  ((List.range words).flatMap fun k =>
      WordBytes.bytes (revBytes32 (WordBytes.load m (mb + 8 + UInt32.ofNat (4 * k))))) ++
    (List.range' (4 * words) (payloadSize - 4 * words)).map fun i => m (mbByte mb (UInt32.ofNat i))

theorem length_readMbData (m : Memory) (mb : UInt32) (payloadSize : Nat) :
    (readMbData m mb payloadSize).length = payloadSize := by
  have hwords : ((List.range (payloadSize / 4)).flatMap fun k =>
      WordBytes.bytes (revBytes32 (WordBytes.load m (mb + 8 + UInt32.ofNat (4 * k))))).length = 4 * (payloadSize / 4) := by
    simp [List.length_flatMap, WordBytes.length_bytes, Nat.mul_comm]
  unfold readMbData
  rw [List.length_append, hwords, List.length_map, List.length_range']
  omega

/-- The payload size by the code and status word, cut to the one of the message buffer. -/
def payloadToRead (cs : UInt32) (mbPayloadSize : UInt8) : UInt8 :=
  let payloadSize := flexcanComputePayloadSize ((cs &&& csDlcMask) >>> csDlcShift).toUInt8
  if payloadSize > mbPayloadSize then mbPayloadSize else payloadSize

theorem payloadToRead_le (cs : UInt32) (mbPayloadSize : UInt8) : (payloadToRead cs mbPayloadSize).toNat ≤ 64 := by
  have hle := flexcanComputePayloadSize_le ((cs &&& csDlcMask) >>> csDlcShift).toUInt8
  unfold payloadToRead
  simp only
  split
  · next h => exact Nat.le_of_lt (Nat.lt_of_lt_of_le h hle)
  · exact hle

/-- `FlexCAN_GetMsgBuff`; it writes the first bytes of `msgBuff->data`. -/
def flexcanGetMsgBuffRam (t : FlexcanType) (m : Memory) (msgBuffIdx : UInt32) (msgBuff : FlexcanIpMsgBuff) :
    MsgBuffRead :=
  let mb := flexcanGetMsgBuffRegion t msgBuffIdx
  let cs := WordBytes.load m mb
  let payloadSize := payloadToRead cs (flexcanGetMbPayloadSize t msgBuffIdx)
  let id := WordBytes.load m (mb + 4)
  { cs := cs
    timeStamp := cs &&& csTimeStampMask
    msgBuff := {
      msgId := if cs &&& csIdeMask ≠ 0 then id else id >>> idStdShift
      dataLen := payloadSize
      data := readMbData m mb payloadSize.toNat ++ msgBuff.data.drop payloadSize.toNat
      length_data := by
        have : payloadSize.toNat ≤ 64 := payloadToRead_le _ _
        rw [List.length_append, List.length_drop, length_readMbData, msgBuff.length_data]
        omega } }

/-! ## The controller's side -/

/-- Where byte `j` is behind the two words. -/
def bytePos (j : Nat) : Nat := 4 * (j / 4) + (3 - j % 4)

/-- Byte `j` of the data. -/
def mbData (m : Memory) (mb : UInt32) (j : Nat) : UInt8 := m (mb + 8 + UInt32.ofNat (bytePos j))

/-- How many bytes a frame with this DLC has. -/
def busLength (dlc : UInt32) : Nat := [0, 1, 2, 3, 4, 5, 6, 7, 8, 12, 16, 20, 24, 32, 48, 64].getD dlc.toNat 0

/-- A frame as it is on the bus. -/
structure BusFrame where
  ide : Bool
  id : UInt32
  rtr : Bool
  fd : Bool
  brs : Bool
  data : List UInt8
deriving DecidableEq

/-- The frame in a message buffer. -/
def busFrame (m : Memory) (mb : UInt32) : BusFrame :=
  let cs := WordBytes.load m mb
  let id := WordBytes.load m (mb + 4)
  let ide := cs &&& csIdeMask ≠ 0
  { ide := ide
    id := if ide then id &&& 0x1FFFFFFF else (id >>> 18) &&& 0x7FF
    rtr := cs &&& csRtrMask ≠ 0
    fd := cs &&& mbEdlMask ≠ 0
    brs := cs &&& mbBrsMask ≠ 0
    data := (List.range (busLength ((cs >>> 16) &&& 0xF))).map (mbData m mb) }

/-- The CODE field. -/
def mbCode (m : Memory) (mb : UInt32) : UInt32 := (WordBytes.load m mb >>> 24) &&& 0xF

/-- `f` has come into the message buffer at `mb`, which has room for `n` bytes. -/
structure Delivers (m : Memory) (mb : UInt32) (n : Nat) (f : CanFrame) (m' : Memory) : Prop where
  id : (busFrame m' mb).id = f.msgId
  data : (busFrame m' mb).data = f.data
  /-- no priority over the identifier -/
  prio : (WordBytes.load m' (mb + 4)).toNat < 2 ^ 29
  fits : f.data.length ≤ n
  others : SameOutside m m' mb (8 + n)

/-- The frame in the message buffer at `mb` has been sent. -/
structure Sends (m : Memory) (mb : UInt32) (m' : Memory) : Prop where
  code : mbCode m' mb ≠ txData
  others : SameOutside m m' mb 4

/-! ## All message buffers -/

/-- `FlexCAN_GetMaxMbNum`, the same for every instance -/
def flexcanGetMaxMbNum : UInt32 := 128

/-- One turn of the loop that makes the message buffers inactive. -/
def clearMsgBuff (t : FlexcanType) (m : Memory) (msgBuffIdx : UInt32) : Memory :=
  let mb := flexcanGetMsgBuffRegion t msgBuffIdx
  let m := WordBytes.store m mb 0
  let m := WordBytes.store m (mb + 4) 0
  (List.range (flexcanGetMbPayloadSize t msgBuffIdx).toNat).foldl
    (fun m k => Function.update m (mb + 8 + UInt32.ofNat k) 0) m

/-- `FlexCAN_SetMaxMsgBuffNum`; `false` is `FLEXCAN_STATUS_BUFF_OUT_OF_RANGE`, and with
`rfen` the legacy FIFO has the RAM. -/
def flexcanSetMaxMsgBuffNum (t : FlexcanType) (m : Memory) (rfen : Bool) (maxMsgBuffNum : UInt32) :
    Option (Bool × Memory) :=
  if maxMsgBuffNum > 0 then
    let canRealPayload := flexcanGetMbPayloadSize t (maxMsgBuffNum - 1)
    let valEndMb := flexcanGetMsgBuffRegion t (maxMsgBuffNum - 1) + canRealPayload.toUInt32 +
      arbitrationFieldSize.toUInt32
    let valEndRam :=
      if t.hasExpandableMemory then t.base + featureExpRamOffset + 4 * ram1nCount
      else t.base + featureRamOffset + 4 * (flexcanGetMaxMbNum * 4)
    if valEndMb > valEndRam ∨ maxMsgBuffNum > flexcanGetMaxMbNum then some (false, m)
    else if rfen then some (true, m)
    else some (true, (List.range maxMsgBuffNum.toNat).foldl (fun m k => clearMsgBuff t m (UInt32.ofNat k)) m)
  else none

end CanTsn
