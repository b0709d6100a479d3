import Mathlib.Data.List.OfFn
import Ros1Adapter.LittleEndian

/-!
# Frames of the service helper

A tool calls a ROS service through a helper process. The two exchange frames of
64 bytes over a private socket; names, checksums and payloads follow the frame
that announces their lengths. A frame that was written is read back.
-/

namespace Ros1Adapter.ServiceHelperFrames

open LittleEndian

section Frames

/-- First word of a frame. -/
def kServiceHelperProtocolMagic : UInt32 := 0x58325253

/-- Version of the protocol. -/
def kServiceHelperProtocolVersion : UInt16 := 1

/-- Longest name of a service. -/
def kMaximumServiceNameBytes : ℕ := 4096

/-- Length of a checksum. -/
def kServiceMd5Bytes : ℕ := 32

/-- Longest payload. -/
def kMaximumServicePayloadBytes : ℕ := 8*1024*1024

/-- Longest time to wait for a service. -/
def kMaximumServiceWaitMilliseconds : ℕ := 300000

/-- Length of a frame. -/
def frameBytes : ℕ := 64

/-- Kind of a frame. -/
inductive ServiceHelperFrameKind where
  | kRequest
  | kReady
  | kCommit
  | kResponse
  deriving DecidableEq

/-- Number of a kind. -/
def ServiceHelperFrameKind.code : ServiceHelperFrameKind → UInt16
  | .kRequest => 1
  | .kReady => 2
  | .kCommit => 3
  | .kResponse => 4

/-- What the helper says before it may call. -/
inductive ServiceHelperReadyStatus where
  | kReady
  | kServiceUnavailable
  | kProtocolError
  deriving DecidableEq

/-- Number of what the helper says before it may call. -/
def ServiceHelperReadyStatus.code : ServiceHelperReadyStatus → UInt32
  | .kReady => 1
  | .kServiceUnavailable => 2
  | .kProtocolError => 3

/-- What the helper says after it called. -/
inductive ServiceHelperResponseStatus where
  | kCompleted
  | kCallFailed
  | kResponseTooLarge
  | kProtocolError
  deriving DecidableEq

/-- Number of what the helper says after it called. -/
def ServiceHelperResponseStatus.code : ServiceHelperResponseStatus → UInt32
  | .kCompleted => 1
  | .kCallFailed => 2
  | .kResponseTooLarge => 3
  | .kProtocolError => 4

/-- A frame. -/
structure ServiceHelperFrame where
  /-- Marks a frame. -/
  magic : UInt32 := 0
  /-- Version of the protocol. -/
  version : UInt16 := 0
  /-- Kind. -/
  kind : UInt16 := 0
  /-- Identity of the call. -/
  requestId : UInt64 := 0
  /-- What the helper says. -/
  status : UInt32 := 0
  /-- Length of the name that follows. -/
  serviceNameBytes : UInt32 := 0
  /-- Length of the checksum that follows. -/
  serviceMd5Bytes : UInt32 := 0
  /-- Length of the payload that follows. -/
  payloadBytes : UInt32 := 0
  /-- Time to wait for the service. -/
  waitForServiceMs : UInt32 := 0
  /-- Bytes without meaning. -/
  reserved : Fin 28 → UInt8 := fun _ => 0

/-- Bytes of a frame in memory. -/
def ServiceHelperFrame.bytes (f : ServiceHelperFrame) : Bytes :=
  wordBytes 4 f.magic.toNat ++ (wordBytes 2 f.version.toNat ++ (wordBytes 2 f.kind.toNat ++
    (wordBytes 8 f.requestId.toNat ++ (wordBytes 4 f.status.toNat ++ (wordBytes 4 f.serviceNameBytes.toNat ++
      (wordBytes 4 f.serviceMd5Bytes.toNat ++ (wordBytes 4 f.payloadBytes.toNat ++
        (wordBytes 4 f.waitForServiceMs.toNat ++ List.ofFn f.reserved))))))))

/-- The frame that bytes in memory are. -/
def ServiceHelperFrame.ofBytes (bytes : Bytes) : ServiceHelperFrame where
  magic := UInt32.ofNat (wordValue 4 bytes)
  version := UInt16.ofNat (wordValue 2 (bytes.drop 4))
  kind := UInt16.ofNat (wordValue 2 (bytes.drop 6))
  requestId := UInt64.ofNat (wordValue 8 (bytes.drop 8))
  status := UInt32.ofNat (wordValue 4 (bytes.drop 16))
  serviceNameBytes := UInt32.ofNat (wordValue 4 (bytes.drop 20))
  serviceMd5Bytes := UInt32.ofNat (wordValue 4 (bytes.drop 24))
  payloadBytes := UInt32.ofNat (wordValue 4 (bytes.drop 28))
  waitForServiceMs := UInt32.ofNat (wordValue 4 (bytes.drop 32))
  reserved i := (bytes.drop 36).getD i 0

/-- A frame has its length. -/
theorem ServiceHelperFrame.bytes_length (f : ServiceHelperFrame) : f.bytes.length=frameBytes := by
  simp only [bytes,List.length_append,wordBytes_length,List.length_ofFn,frameBytes]

/-- Bytes behind a word and what stands before it. -/
theorem drop_word {bytes rest : Bytes} {before width n : ℕ} (h : bytes.drop before=wordBytes width n ++ rest) :
    bytes.drop (before+width)=rest := by
  rw [← List.drop_drop,h]
  exact List.drop_left' (wordBytes_length width n)

/-- A frame that was written is read back. -/
theorem ServiceHelperFrame.ofBytes_bytes (f : ServiceHelperFrame) : ofBytes f.bytes=f := by
  obtain ⟨magic,version,kind,id,status,name,md5,payload,wait,reserved⟩ := f
  generalize whole : bytes ⟨magic,version,kind,id,status,name,md5,payload,wait,reserved⟩=stream
  unfold bytes at whole
  dsimp only at whole
  have at0 := whole.symm
  have at4 : stream.drop (0+4)=_ := drop_word at0
  have at6 := drop_word at4
  have at8 := drop_word at6
  have at16 := drop_word at8
  have at20 := drop_word at16
  have at24 := drop_word at20
  have at28 := drop_word at24
  have at32 := drop_word at28
  have at36 := drop_word at32
  norm_num only at at4 at6 at8 at16 at20 at24 at28 at32 at36
  unfold ofBytes
  rw [at4,at6,at8,at16,at20,at24,at28,at32,at36,at0,wordValue_wordBytes magic.toNat_lt,wordValue_wordBytes version.toNat_lt,
    wordValue_wordBytes kind.toNat_lt,wordValue_wordBytes id.toNat_lt,wordValue_wordBytes status.toNat_lt,
    wordValue_wordBytes name.toNat_lt,wordValue_wordBytes md5.toNat_lt,wordValue_wordBytes payload.toNat_lt,
    wordValue_wordBytes wait.toNat_lt]
  simp only [UInt32.ofNat_toNat,UInt16.ofNat_toNat,UInt64.ofNat_toNat]
  congr 1
  funext i
  rw [List.getD_eq_getElem?_getD,List.getElem?_ofFn,dif_pos i.isLt]
  rfl

end Frames

section Making

/-- Request for a call. -/
def makeServiceHelperRequest (requestId : UInt64) (serviceNameBytes serviceMd5Bytes payloadBytes : ℕ)
    (waitForServiceMs : UInt32) : ServiceHelperFrame where
  magic := kServiceHelperProtocolMagic
  version := kServiceHelperProtocolVersion
  kind := ServiceHelperFrameKind.kRequest.code
  requestId := requestId
  serviceNameBytes := UInt32.ofNat serviceNameBytes
  serviceMd5Bytes := UInt32.ofNat serviceMd5Bytes
  payloadBytes := UInt32.ofNat payloadBytes
  waitForServiceMs := waitForServiceMs

/-- Answer to a request. -/
def makeServiceHelperReady (requestId : UInt64) (status : ServiceHelperReadyStatus) : ServiceHelperFrame where
  magic := kServiceHelperProtocolMagic
  version := kServiceHelperProtocolVersion
  kind := ServiceHelperFrameKind.kReady.code
  requestId := requestId
  status := status.code

/-- Leave to call. -/
def makeServiceHelperCommit (requestId : UInt64) : ServiceHelperFrame where
  magic := kServiceHelperProtocolMagic
  version := kServiceHelperProtocolVersion
  kind := ServiceHelperFrameKind.kCommit.code
  requestId := requestId

/-- Answer to a commit. -/
def makeServiceHelperResponse (requestId : UInt64) (status : ServiceHelperResponseStatus) (payloadBytes : ℕ) :
    ServiceHelperFrame where
  magic := kServiceHelperProtocolMagic
  version := kServiceHelperProtocolVersion
  kind := ServiceHelperFrameKind.kResponse.code
  requestId := requestId
  status := status.code
  payloadBytes := UInt32.ofNat payloadBytes

end Making

section Validating

/-- Hexadecimal digit. -/
def hexDigit (c : UInt8) : Bool :=
  (decide (0x30 ≤ c) && decide (c ≤ 0x39)) || (decide (0x61 ≤ c) && decide (c ≤ 0x66)) || (decide (0x41 ≤ c) && decide (c ≤ 0x46))

/-- A checksum is 32 hexadecimal digits. -/
def validServiceMd5 (value : Bytes) : Bool := decide (value.length=kServiceMd5Bytes) && value.all hexDigit

/-- Marks that every frame has. -/
def validServiceHelperFrameBase (frame : ServiceHelperFrame) : Bool :=
  decide (frame.magic=kServiceHelperProtocolMagic) && decide (frame.version=kServiceHelperProtocolVersion) &&
    decide (frame.requestId≠0) && decide (∀ i, frame.reserved i=0)

/-- A request within the limits. -/
def validateServiceHelperRequest (frame : ServiceHelperFrame) : Bool :=
  validServiceHelperFrameBase frame && decide (frame.kind=ServiceHelperFrameKind.kRequest.code) && decide (frame.status=0) &&
    decide (0<frame.serviceNameBytes.toNat) && decide (frame.serviceNameBytes.toNat ≤ kMaximumServiceNameBytes) &&
    decide (frame.serviceMd5Bytes.toNat=kServiceMd5Bytes) &&
    decide (frame.payloadBytes.toNat ≤ kMaximumServicePayloadBytes) &&
    decide (frame.waitForServiceMs.toNat ≤ kMaximumServiceWaitMilliseconds)

/-- An answer to the request of an identity. -/
def validateServiceHelperReady (frame : ServiceHelperFrame) (requestId : UInt64) : Bool :=
  validServiceHelperFrameBase frame && decide (frame.requestId=requestId) &&
    decide (frame.kind=ServiceHelperFrameKind.kReady.code) && decide (frame.serviceNameBytes=0) &&
    decide (frame.serviceMd5Bytes=0) && decide (frame.payloadBytes=0) && decide (frame.waitForServiceMs=0) &&
    (decide (frame.status=ServiceHelperReadyStatus.kReady.code) ||
      decide (frame.status=ServiceHelperReadyStatus.kServiceUnavailable.code) ||
      decide (frame.status=ServiceHelperReadyStatus.kProtocolError.code))

/-- Leave to make the call of an identity. -/
def validateServiceHelperCommit (frame : ServiceHelperFrame) (requestId : UInt64) : Bool :=
  validServiceHelperFrameBase frame && decide (frame.requestId=requestId) &&
    decide (frame.kind=ServiceHelperFrameKind.kCommit.code) && decide (frame.status=0) && decide (frame.serviceNameBytes=0) &&
    decide (frame.serviceMd5Bytes=0) && decide (frame.payloadBytes=0) && decide (frame.waitForServiceMs=0)

/-- An answer to the commit of an identity. -/
def validateServiceHelperResponse (frame : ServiceHelperFrame) (requestId : UInt64) : Bool :=
  validServiceHelperFrameBase frame && decide (frame.requestId=requestId) &&
    decide (frame.kind=ServiceHelperFrameKind.kResponse.code) && decide (frame.serviceNameBytes=0) &&
    decide (frame.serviceMd5Bytes=0) && decide (frame.waitForServiceMs=0) &&
    decide (frame.payloadBytes.toNat ≤ kMaximumServicePayloadBytes) &&
    (decide (frame.status=ServiceHelperResponseStatus.kCompleted.code) ||
      (decide (frame.payloadBytes=0) &&
        (decide (frame.status=ServiceHelperResponseStatus.kCallFailed.code) ||
          decide (frame.status=ServiceHelperResponseStatus.kResponseTooLarge.code) ||
          decide (frame.status=ServiceHelperResponseStatus.kProtocolError.code))))

end Validating

end Ros1Adapter.ServiceHelperFrames
