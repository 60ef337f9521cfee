import CanTsnGateway.Lib.ByteMemory
import CanTsnGateway.Lib.StepMachine
import CanTsnGateway.Model.EthDriver

/-!
# `Eth_Transmit` beside the transmit interrupt and the DMA

The gateway task is the only one that sends.  Between any two statements of its
`Eth_Transmit` the transmit interrupt can run `Eth_ReportTransmission`, and the DMA works
on what it owns.  One step of `txSide` is

    offer    section 4 of the gateway loop, up to the first statement of `Eth_Transmit` that
             touches what the interrupt or the DMA touch
    advance  the next statement of the `Eth_Transmit` under way
    txIrq    `Eth_TxIrqCallback`
    dma      the DMA sends the frame of its next descriptor and gives the descriptor back

A pointer to an entry of `Eth_axTxBufferIdxMap` is the entry's index, `NULL_PTR` is `none`.
-/

namespace CanTsn

open ByteMemory StepMachine

def ethMaxTxFifoSupported : UInt8 := 3
def gmacTxStatErrMask : UInt32 := 0x00007F0D
/-- The frame length in a transmit descriptor's `Des3`. -/
def gmacTdes3LengthMask : UInt32 := 0x7FFF
def ethFrameMacDstOffset : UInt32 := 0
def ethFrameMacSrcOffset : UInt32 := 6
def ethFrameEthTypeOffset : UInt32 := 12

/-- `Eth_QueueInfo` -/
structure EthQueueInfo where
  pQueueHead : Option UInt32
  pQueueTail : Option UInt32

/-- The driver with the transmission requests, and the memory the DMA reads. -/
structure EthCtrl where
  tx : EthTx
  bTxConfirmation : UInt32 → Bool
  pNextBuffer : UInt32 → Option UInt32
  /-- `Eth_axTransmissionRequests` -/
  transmissionRequests : UInt8 → EthQueueInfo
  /-- `MAC_ADDRESS0_LOW`, `MAC_ADDRESS0_HIGH` -/
  macAddress0Low : UInt32
  macAddress0High : UInt32
  memory : Memory

namespace EthCtrl

def setRing (c : EthCtrl) (fifoIdx : UInt8) (r : TxRing) : EthCtrl := { c with tx := c.tx.setRing fifoIdx r }

def setNext (c : EthCtrl) (bufIdx : UInt32) (p : Option UInt32) : EthCtrl :=
  { c with pNextBuffer := Function.update c.pNextBuffer bufIdx p }

def setRequests (c : EthCtrl) (fifoIdx : UInt8) (q : EthQueueInfo) : EthCtrl :=
  { c with transmissionRequests := Function.update c.transmissionRequests fifoIdx q }

end EthCtrl

inductive TxEvent where
  | provided (priority : UInt8) (lenByte : UInt16) (res : BufReq)
  /-- `bytes` are copied into the granted buffer. -/
  | copied (fifoIdx : UInt8) (bufIdx ethPayload : UInt32) (bufLen : UInt16) (bytes : List UInt8)
  | transmitted (bufIdx : UInt32) (lenByte : UInt16) (ok : Bool)
  /-- A frame leaves through this ring. -/
  | wire (fifoIdx : UInt8) (bytes : List UInt8)
  /-- `EthIf_TxConfirmation` -/
  | confirmed (fifoIdx : UInt8) (bufIdx : UInt32) (result : Bool)
deriving DecidableEq

/-! ## The interrupt -/

/-- `Info->ErrMask` of the status that `gmacGetTransmitStatus` reads. -/
def gmacTxErrMask (r : TxRing) (data : UInt32) : UInt32 :=
  match (List.range r.ringDesc.length).find? fun k => (r.bd k).info0 = data with
  | none => 0
  | some k => (r.bd k).des3 &&& gmacTxStatErrMask

/-- The body of the loop when the status is `E_OK`. -/
def confirmRequest (c : EthCtrl) (fifoIdx : UInt8) (iter : UInt32) : EthCtrl × List TxEvent :=
  let b := c.tx.txBufferIdxMap iter
  let frameHasError := gmacTxErrMask (c.tx.ring fifoIdx) b.pu8BufferData ≠ 0
  let (_, r) := gmacGetTransmitStatus (c.tx.ring fifoIdx) b.pu8BufferData
  let c := c.setRing fifoIdx r
  let c := { c with tx := c.tx.setBuffer iter { b with pu8BufferData := 0 } }
  (c.setRequests fifoIdx { c.transmissionRequests fifoIdx with pQueueHead := c.pNextBuffer iter },
    if c.bTxConfirmation iter then [.confirmed fifoIdx iter (!frameHasError)] else [])

/-- The `while` of `Eth_ReportTransmission` from `iter` on; `none` when `fuel` passes do not
end it. -/
def reportFrom (fifoIdx : UInt8) : Nat → EthCtrl → Option UInt32 → Option (EthCtrl × List TxEvent)
  | _, c, none => some (c, [])
  | 0, _, some _ => none
  | fuel + 1, c, some iter =>
    if (gmacGetTransmitStatus (c.tx.ring fifoIdx) (c.tx.txBufferIdxMap iter).pu8BufferData).1 then
      let (c₁, es) := confirmRequest c fifoIdx iter
      match reportFrom fifoIdx fuel c₁ (c₁.pNextBuffer iter) with
      | none => none
      | some (c₂, tr) => some (c₂, es ++ tr)
    else some (c, [])

/-- `Eth_ReportTransmission` -/
def ethReportTransmission (c : EthCtrl) (fifoIdx : UInt8) : Option (EthCtrl × List TxEvent) :=
  if fifoIdx < ethMaxTxFifoSupported then
    reportFrom fifoIdx (txBufferCount.toNat + 1) c (c.transmissionRequests fifoIdx).pQueueHead
  else some (c, [])

/-! ## `Eth_Transmit` -/

/-- `Gmac_Ip_GetMacAddr` -/
def gmacGetMacAddr (low high : UInt32) : List UInt8 :=
  [low.toUInt8, (low >>> 8).toUInt8, (low >>> 16).toUInt8, (low >>> 24).toUInt8,
    high.toUInt8, (high >>> 8).toUInt8]

/-- `Eth_Local_Memcpy` -/
def ethLocalMemcpy (m : Memory) (dst : UInt32) (src : List UInt8) : Memory := storeDown m dst src src.length

/-- `Eth_Local_Macro_Htons` -/
def ethLocalMacroHtons (u16Value : UInt16) : UInt16 :=
  ((u16Value &&& 0xFF) <<< 8) ||| ((u16Value &&& 0xFF00) >>> 8)

/-- A `uint16` in little-endian memory. -/
def uint16Bytes (x : UInt16) : List UInt8 := [x.toUInt8, (x >>> 8).toUInt8]

/-- The three header copies into the frame buffer. -/
def ethInsertHeader (c : EthCtrl) (frameBuffer : UInt32) (frameType : UInt16) (physAddr : List UInt8) : Memory :=
  let m := ethLocalMemcpy c.memory (frameBuffer + ethFrameMacDstOffset) physAddr
  let m := ethLocalMemcpy m (frameBuffer + ethFrameMacSrcOffset)
    (gmacGetMacAddr c.macAddress0Low c.macAddress0High)
  ethLocalMemcpy m (frameBuffer + ethFrameEthTypeOffset) (uint16Bytes (ethLocalMacroHtons frameType))

/-- The statement of `Eth_Transmit` that comes next. -/
inductive TransmitPc where
  /-- the test of `pQueueHead` -/
  | testHead
  /-- `pQueueHead = &entry`, then `pQueueTail = &entry` -/
  | setHead
  | setTail
  /-- `pQueueTail->pNextBuffer = &entry`, then `pQueueTail = &entry` -/
  | linkTail
  | moveTail
  /-- `pQueueTail->pNextBuffer = NULL_PTR` -/
  | terminate
  /-- `Gmac_Ip_SendFrame`: the test of OWN, `Des0`, `Des2` and `Info0`, `Des3` without OWN,
  OWN, the tail pointer -/
  | testOwn
  | fillDesc
  | fillLength
  | setOwn
  | moveTailPointer
deriving DecidableEq

/-- An `Eth_Transmit` under way with its local variables. -/
structure Transmitting where
  bufIdx : UInt32
  frameBuffer : UInt32
  fifoIdx : UInt8
  lenByte : UInt16
  pc : TransmitPc

def Transmitting.frameLength (t : Transmitting) : UInt16 := t.lenByte + ethFrameHeaderLength

/-- The checks, `bTxConfirmation`, the header and the local variables; `none`: `E_NOT_OK`. -/
def ethTransmitEnter (c : EthCtrl) (bufIdx : UInt32) (frameType : UInt16) (txConfirmation : Bool)
    (lenByte : UInt16) (physAddr : List UInt8) : Option (EthCtrl × Transmitting) :=
  if c.tx.initialised = false ∨ c.tx.active = false then none
  else if bufIdx ≥ txBufferCount ∨ (c.tx.txBufferIdxMap bufIdx).pu8BufferData = 0 then none
  else
    let b := c.tx.txBufferIdxMap bufIdx
    some ({ c with
        bTxConfirmation := Function.update c.bTxConfirmation bufIdx txConfirmation
        memory := ethInsertHeader c b.pu8BufferData frameType physAddr },
      ⟨bufIdx, b.pu8BufferData, b.fifoIdx, lenByte, .testHead⟩)

inductive TransmitNext where
  | running (pc : TransmitPc)
  | returned (ok : Bool)

/-- One statement; `none`: it goes through `pQueueTail`, and that is `NULL_PTR`. -/
def transmitStep (c : EthCtrl) (t : Transmitting) : Option (EthCtrl × TransmitNext) :=
  let q := c.transmissionRequests t.fifoIdx
  let r := c.tx.ring t.fifoIdx
  let bd := r.bd r.tail
  match t.pc with
  | .testHead => some (c, .running (if q.pQueueHead = none then .setHead else .linkTail))
  | .setHead => some (c.setRequests t.fifoIdx { q with pQueueHead := some t.bufIdx }, .running .setTail)
  | .setTail => some (c.setRequests t.fifoIdx { q with pQueueTail := some t.bufIdx }, .running .terminate)
  | .linkTail => q.pQueueTail.map fun tail => (c.setNext tail (some t.bufIdx), .running .moveTail)
  | .moveTail => some (c.setRequests t.fifoIdx { q with pQueueTail := some t.bufIdx }, .running .terminate)
  | .terminate => q.pQueueTail.map fun tail => (c.setNext tail none, .running .testOwn)
  | .testOwn =>
    some (c, if bd.des3 &&& gmacTdes3OwnMask ≠ 0 then .returned false else .running .fillDesc)
  | .fillDesc =>
    some (c.setRing t.fifoIdx (r.write r.tail { bd with des0 := t.frameBuffer, info0 := t.frameBuffer }),
      .running .fillLength)
  | .fillLength =>
    some (c.setRing t.fifoIdx (r.write r.tail { bd with des3 := t.frameLength.toUInt32 }), .running .setOwn)
  | .setOwn =>
    some (c.setRing t.fifoIdx (r.write r.tail { bd with des3 := bd.des3 ||| gmacTdes3OwnMask }),
      .running .moveTailPointer)
  | .moveTailPointer => some (c.setRing t.fifoIdx { r with tail := r.next r.tail }, .returned true)

/-! ## The transmit side -/

structure TxSide where
  ctrl : EthCtrl
  transmit : Option Transmitting
  /-- the descriptor the DMA is at, for each ring -/
  dmaDesc : UInt8 → Nat

/-- After initialisation, with the data buffers of the rings at `buffer`. -/
def TxSide.init (buffer : UInt8 → UInt32) (macAddress0Low macAddress0High : UInt32) (memory : Memory) :
    TxSide where
  ctrl := {
    tx := EthTx.init buffer
    bTxConfirmation := fun _ => false
    pNextBuffer := fun _ => none
    transmissionRequests := fun _ => ⟨none, none⟩
    macAddress0Low := macAddress0Low
    macAddress0High := macAddress0High
    memory := memory }
  transmit := none
  dmaDesc := fun _ => 0

inductive TxInput where
  /-- A container for `Eth_ProvideTxBuffer`, `memcpy` and `Eth_Transmit`. -/
  | offer (priority : UInt8) (container : List UInt8)
  | advance
  | txIrq (fifoIdx : UInt8)
  /-- What the DMA writes back. -/
  | dma (fifoIdx : UInt8) (des0 des3 : UInt32)

/-- The gateway's frame type and destination. -/
def gwFrameType : UInt16 := 0x0A0B
def gmac0MacAddr : List UInt8 := [0x00, 0x11, 0x22, 0x33, 0x44, 0x44]

/-- Section 4 of the gateway loop; a task inside `Eth_Transmit` does not get here. -/
def offerContainer (s : TxSide) (priority : UInt8) (container : List UInt8) : TxSide × List TxEvent :=
  let lenByte := container.length.toUInt16
  match ethProvideTxBuffer s.ctrl.tx priority txBufferRequest with
  | (.refused code n, tx) =>
    ({ s with ctrl := { s.ctrl with tx := tx } }, [.provided priority txBufferRequest (.refused code n)])
  | (.granted bufIdx ethPayload n, tx) =>
    let c := { s.ctrl with tx := tx, memory := write s.ctrl.memory ethPayload container }
    let es : List TxEvent := [.provided priority txBufferRequest (.granted bufIdx ethPayload n),
      .copied (vlanPcpToFifoIdx priority) bufIdx ethPayload n container]
    match ethTransmitEnter c bufIdx gwFrameType true lenByte gmac0MacAddr with
    | none => ({ s with ctrl := c }, es ++ [.transmitted bufIdx lenByte false])
    | some (c, t) => ({ s with ctrl := c, transmit := some t }, es)

/-- After the statement at hand. -/
def TransmitNext.resume (s : TxSide) (t : Transmitting) (c : EthCtrl) : TransmitNext → TxSide × List TxEvent
  | .running pc => ({ s with ctrl := c, transmit := some { t with pc := pc } }, [])
  | .returned ok => ({ s with ctrl := c, transmit := none }, [.transmitted t.bufIdx t.lenByte ok])

/-- The statement at hand. -/
def advanceTransmit (s : TxSide) (t : Transmitting) : Option (TxSide × List TxEvent) :=
  (transmitStep s.ctrl t).map fun r => r.2.resume s t r.1

/-- The DMA sends what its descriptor says, if it owns it. -/
def dmaSend (s : TxSide) (fifoIdx : UInt8) (des0 des3 : UInt32) : TxSide × List TxEvent :=
  let r := s.ctrl.tx.ring fifoIdx
  let k := s.dmaDesc fifoIdx
  let bd := r.bd k
  if fifoIdx < ethMaxTxFifoSupported ∧ bd.des3 &&& gmacTdes3OwnMask ≠ 0 then
    ({ s with
        ctrl := s.ctrl.setRing fifoIdx (r.dmaDone k des0 des3)
        dmaDesc := Function.update s.dmaDesc fifoIdx (r.next k) },
      [.wire fifoIdx (read s.ctrl.memory bd.des0 (bd.des3 &&& gmacTdes3LengthMask).toNat)])
  else (s, [])

def txSide : Machine TxSide TxInput TxEvent where
  step s i :=
    match i, s.transmit with
    | .offer priority container, none => some (offerContainer s priority container)
    | .offer _ _, some _ => some (s, [])
    | .advance, some t => advanceTransmit s t
    | .advance, none => some (s, [])
    | .txIrq fifoIdx, _ =>
      (ethReportTransmission s.ctrl fifoIdx).map fun r => ({ s with ctrl := r.1 }, r.2)
    | .dma fifoIdx des0 des3, _ => some (dmaSend s fifoIdx des0 des3)

end CanTsn
