/-
Setting up a connection (`fuji_setup` in `fuji.c`; `fujitether_setup` and `fujiusb_setup` in
`fuji_usb.c`).

The camera acknowledges the handshake, a session is opened, and `fuji_get_events` polls until
the camera grants access; only then is the camera configured.  `fujiSetup_writes` says that no
property is written before, over every sequence of responses and any number of polls, and that
none is written in a wireless tether session.
-/
import LibFuji.Liveview

namespace Fuji

open ByteCodec Interaction

/-! ### The code: the handshake -/

def fujiProtocolVersion : ℕ := 0x8f53e4f2
def ptpipInitCommandReq : ℕ := 1
def ptpipInitCommandAck : ℕ := 2

/-- `ptp_write_unicode_string`: every character and a terminator. -/
def unicodeString (name : List UInt8) : List UInt8 := name.flatMap (fun c => [c, 0]) ++ [0, 0]

/-- The header of `struct FujiInitPacket`. -/
def initHeader : List UInt8 :=
  leBytes 4 0x52 ++ leBytes 4 ptpipInitCommandReq ++ leBytes 4 fujiProtocolVersion
    ++ leBytes 4 0x5d48a5ad ++ leBytes 4 0xb7fb287 ++ leBytes 4 0xd0ded5d3 ++ leBytes 4 0

/-- Bytes written over a buffer from an offset on. -/
def overwrite (data : List UInt8) (of : ℕ) (bytes : List UInt8) : List UInt8 :=
  data.take of ++ bytes ++ data.drop (of + bytes.length)

section Overwrite

variable {data bytes : List UInt8} {of : ℕ}

theorem overwrite_length (hin : of + bytes.length ≤ data.length) :
    (overwrite data of bytes).length = data.length := by
  simp only [overwrite, List.length_append, List.length_take, List.length_drop]
  omega

theorem overwrite_take (hof : of ≤ data.length) :
    (overwrite data of bytes).take (of + bytes.length) = data.take of ++ bytes := by
  have hlen : (data.take of ++ bytes).length = of + bytes.length := by
    rw [List.length_append, List.length_take, Nat.min_eq_left hof]
  rw [overwrite, ← hlen, List.take_left]

theorem overwrite_drop (hof : of ≤ data.length) :
    (overwrite data of bytes).drop of = bytes ++ data.drop (of + bytes.length) := by
  rw [overwrite, List.append_assoc, List.drop_left' (List.length_take_of_le hof)]

end Overwrite

/-- `struct FujiInitPacket` in the buffer. -/
def initPacket (deviceName : List UInt8) : List UInt8 :=
  overwrite (initHeader ++ List.replicate 54 0) 28 (unicodeString deviceName)

/-- The type of a packet in the buffer. -/
def packetType (data : List UInt8) : ℕ := leNat ((data.drop 4).take 4)

/-- `ptpip_fuji_connect_handshake_`: the return code, and the name of the camera as it is in the
packet. -/
def ptpipFujiConnectHandshake_ (deviceName : List UInt8) : PtpM (Rc × List UInt8) := do
  let data := initPacket deviceName
  let x : Int ← ask (.cmdWrite (data.take 0x52))
  if x ≠ 0x52 then return (.ioErr, [])
  else
    let reply : Int × List UInt8 ← ask (.cmdRead 0 4)
    if reply.1 ≤ 0 then return (.ioErr, [])
    else
      let data := overwrite data 0 reply.2
      let length := toCInt (leNat (data.take 4))
      let reply : Int × List UInt8 ← ask (.cmdRead 4 (length - 4))
      if reply.1 ≤ 0 then return (.ioErr, [])
      else
        let data := overwrite data 4 reply.2
        if packetType data ≠ ptpipInitCommandAck then return (.runtimeErr, [])
        else return (.ok, data.drop 28)

/-- `ptpip_fuji_connect_handshake`. -/
def ptpipFujiConnectHandshake (deviceName : List UInt8) : PtpM (Rc × List UInt8) := do
  ptpMutexLock
  let r ← ptpipFujiConnectHandshake_ deviceName
  ptpMutexUnlock
  return r

/-! ### The code: `fuji_setup` -/

/-- `enum FujiCameraStates`. -/
def fujiWaitForAccess : UInt32 := 0
def fujiFullAccess : UInt32 := 2
def fujiPcAutoSave : UInt32 := 3

/-- `-1` in an `int` of the runtime. -/
def minusOne : UInt32 := 0xffffffff

def fujiViewMultiple : UInt16 := 1
def fujiViewAllImgs : UInt16 := 2
def fujiOldRemote : UInt16 := 3

def ocOpenSession : ℕ := 0x1002
def rcSessionAlreadyOpened : UInt16 := 0x201e

/-- `fuji_setup`: the handshake with its second attempts. -/
def initConnection (clientName : List UInt8) : PtpM (Rc × List UInt8) := do
  let r ← ptpipFujiConnectHandshake clientName
  if r.1 = .runtimeErr then
    let cancelled : Bool ← ask .checkThreadCancel
    if cancelled = true then return (.canceled, [])
    else ptpipFujiConnectHandshake clientName
  else if r.1 ≠ .ok then
    let cancelled : Bool ← ask .checkThreadCancel
    if cancelled = true then return (.canceled, [])
    else
      let _ ← ask (.usleep 1000)
      let cancelled : Bool ← ask .checkThreadCancel
      if cancelled = true then return (.canceled, [])
      else ptpipFujiConnectHandshake clientName
  else return r

/-- `fuji_setup`: a session, or one that is open already. -/
def openSession : PtpM Rc := do
  modify fun r => { r with session := r.session + 1, transaction := 1 }
  let r ← get
  let rc ← transactRc (.send ocOpenSession [r.session])
  if rc = .checkCode then
    let code : UInt16 ← ask .returnCode
    if code ≠ rcSessionAlreadyOpened then return rc else return .ok
  else return rc

/-- The camera has not granted access yet. -/
def PtpRuntime.Waiting (fuji : PtpRuntime) : Prop :=
  fuji.cameraState = fujiWaitForAccess ∨ fuji.cameraState = minusOne

instance (fuji : PtpRuntime) : Decidable fuji.Waiting := by
  unfold PtpRuntime.Waiting
  infer_instance

/-- The loop of `fuji_setup` that waits for access, `n` times more at most. -/
def waitLoop : ℕ → PtpM Rc
  | 0 => hang
  | n + 1 => do
    let fuji ← get
    if fuji.Waiting then
      andThen fujiGetEvents do
        let _ ← ask (.usleep 100000)
        waitLoop n
    else return .ok

/-- `fuji_setup`: the first poll, and those until access is granted. -/
def waitForAccess (fuel : ℕ) : PtpM Rc := andThen fujiGetEvents (waitLoop fuel)

/-- `fuji_setup`: a version property that is read and kept. -/
def readVersion (code : ℕ) (store : Int32 → PtpRuntime → PtpRuntime) : PtpM Rc :=
  andThen (transactRc (.getPropValue code)) do
    let version : Int32 ← ask .parsePropValue
    modify (store version)
    return .ok

/-- `fuji_setup`: the version properties. -/
def readVersions : PtpM Rc :=
  andThen (readVersion dpcGetObjectVersion fun v fuji => { fuji with getObjectVersion := v }) <|
    andThen (readVersion dpcRemoteGetObjectVersion fun v fuji =>
      { fuji with
        remoteImageViewVersion := v
        sortByOldestFirst := if v ≥ 5 then true else fuji.sortByOldestFirst }) <|
    andThen (readVersion dpcImageGetVersion fun v fuji => { fuji with imageGetVersion := v }) <|
    readVersion dpcRemoteVersion fun v fuji =>
      { fuji with
        remoteVersion := v
        transport := if v < 0x20007 ∧ fuji.transport = .xappWirelessComm then .wirelessComm
          else fuji.transport }

/-- `fuji_config_init_mode`: the mode. -/
def PtpRuntime.initMode (fuji : PtpRuntime) : UInt16 :=
  if fuji.transport = .xappWirelessComm then fujiModeRemoteImgViewXapp
  else if fuji.remoteVersion ≠ -1 ∨ fuji.cameraState = fujiRemoteAccess then fujiRemoteMode
  else if fuji.cameraState = fujiMultipleTransfer then fujiViewMultiple
  else if fuji.cameraState = fujiFullAccess then fujiViewAllImgs
  else if fuji.cameraState = fujiPcAutoSave then fujiOldRemote
  else fujiViewAllImgs

/-- `fuji_config_init_mode`. -/
def fujiConfigInitMode : PtpM Rc := do
  let fuji ← get
  andThen (transactRc (.setPropValue16 dpcClientState fuji.initMode)) fujiGetEvents

/-- A version property that is read and written back. -/
def confirmVersion (code : ℕ) : PtpM Rc :=
  andThen (transactRc (.getPropValue code)) do
    let version : Int32 ← ask .parsePropValue
    transactRc (.setPropValue code version)

/-- `fuji_config_version_`. -/
def fujiConfigVersion_ : PtpM Rc := do
  let fuji ← get
  if fuji.transport = .xappWirelessComm then return .ok
  else if fuji.cameraState = fujiPcAutoSave then confirmVersion dpcAutoSaveVersion
  else if fuji.remoteVersion = -1 then confirmVersion dpcGetObjectVersion
  else transactRc (.setPropValue dpcRemoteVersion fujiCamConnectRemoteVer)

/-- `fuji_config_version`. -/
def fujiConfigVersion : PtpM Rc := do
  ptpMutexLock
  let rc ← fujiConfigVersion_
  ptpMutexUnlock
  return rc

/-- `fuji_setup`: the name of the storage device. -/
def readStorageName : PtpM Rc := do
  let rc ← transactRc (.getPropValue dpcStorageID)
  let card : Int32 ← if rc = .ok then ask .parsePropValue else pure 0
  if rc = .ok ∧ card > 0 then
    let card : Int32 ← ask .parsePropValue
    modify fun fuji => { fuji with storageDeviceName := "Card " ++ toString card }
    return .ok
  else if rc = .checkCode ∨ rc = .ok then
    modify fun fuji => { fuji with storageDeviceName := "Card" }
    return .ok
  else return rc

/-- `fuji_setup`: liveview is started and ended once. -/
def tryLiveview : PtpM Rc := do
  let fuji ← get
  if fuji.remoteVersion ≠ -1 ∧ fuji.cameraState = fujiRemoteAccess ∧
      fuji.transport ≠ .xappWirelessComm then
    andThen fujiConfigLiveview <| andThen fujiEndLiveview fujiConfigImageGallery
  else return .ok

/-- `fuji_setup` from the mode on, if the camera does not send images it has selected. -/
def configureGallery : PtpM Rc := do
  let fuji ← get
  if fuji.cameraState = fujiMultipleTransfer then return .ok
  else andThen fujiConfigVersion do
    let fuji ← get
    andThen (if fuji.transport = .autosave then
        transactRc (.setPropValue16 dpcEnableCorrectFileSize 1) else return .ok) <|
      andThen readStorageName do
        appUpdateStorageInfo
        tryLiveview

/-- `fuji_setup` once access is granted. -/
def configure : PtpM Rc :=
  andThen readVersions <| andThen fujiConfigInitMode do
    let fuji ← get
    if fuji.transport = .xappWirelessComm then
      let rc ← fujiXappConfigGallery
      if rc ≠ .ok ∧ rc ≠ .checkCode then return rc else configureGallery
    else configureGallery

/-- `fuji_setup` once the session is open. -/
def setupSession (fuel : ℕ) : PtpM Rc := do
  let fuji ← get
  if fuji.transport = .wirelessTether then return .ok
  else
    modify fun fuji =>
      { fuji with cameraState := minusOne, numObjects := minusOne, selectedImgsMode := minusOne }
    andThen (waitForAccess fuel) configure

/-- `fuji_setup`. -/
def fujiSetup (fuel : ℕ) (clientName : List UInt8) : PtpM Rc := do
  let r ← initConnection clientName
  if r.1 ≠ .ok then return r.1
  else
    let _ ← ask (.sendCamName r.2)
    let fuji ← get
    if fuji.transport = .wirelessComm ∨ fuji.transport = .xappWirelessComm then
      let _ ← ask (.usleep 50000)
      andThen openSession (setupSession fuel)
    else andThen openSession (setupSession fuel)

/-! ### The code: `fujitether_setup` -/

def dpcUSBMode : ℕ := 0xd16e

/-- `enum FujiUSBModes`. -/
def fujiUsbModeTether : Int32 := 5
def fujiUsbModeRawconv : Int32 := 6
def fujiUsbModeWebcam : Int32 := 8

/-- `fujiusb_setup`: the transport of a USB mode. -/
def transportOfMode (mode : Int32) : FujiTransport :=
  if mode = fujiUsbModeTether then .usbTetherShoot
  else if mode = fujiUsbModeRawconv then .rawConv
  else if mode = fujiUsbModeWebcam then .webcam
  else .usb

/-- `fujiusb_setup`. -/
def fujiusbSetup : PtpM Rc := do
  let rc ← transactRc .openSession
  if rc ≠ .checkCode ∧ rc ≠ .ok then return rc
  else
    let r ← transact .getDeviceInfo
    if r.rc ≠ .ok then return r.rc
    else
      let di : DeviceInfo := r.out
      let _ ← ask (.sendCamName di.model)
      let rc ← transactRc (.getPropValue dpcUSBMode)
      if rc = .checkCode then
        modify fun fuji => { fuji with transport := .usbCardReader }
        return rc
      else if rc ≠ .ok then return rc
      else
        let mode : Int32 ← ask .parsePropValue
        modify fun fuji => { fuji with transport := transportOfMode mode }
        return rc

/-- The handshake of `fujitether_setup`, once more if the camera has refused the one before. -/
def retryHandshake (clientName : List UInt8) (r : Rc × List UInt8) : PtpM (Rc × List UInt8) :=
  if r.1 = .runtimeErr then ptpipFujiConnectHandshake clientName else return r

/-- `fujitether_setup`. -/
def fujitetherSetup (clientName : List UInt8) : PtpM Rc := do
  let fuji ← get
  if fuji.connectionType = .ipUsb then
    let r ← ptpipFujiConnectHandshake clientName
    let r ← retryHandshake clientName r
    let r ← retryHandshake clientName r
    let r ← retryHandshake clientName r
    if r.1 ≠ .ok then return r.1
    else
      let _ ← ask (.sendCamName r.2)
      let _ ← ask (.usleep 50000)
      fujiusbSetup
  else fujiusbSetup

/-! ### Writes -/

/-- `PTP_OC_SetDevicePropValue`. -/
def ocSetDevicePropValue : ℕ := 0x1016

/-- Operations that write a property. -/
def Op.Writes : Op → Prop
  | .ptp (.send code _) => code = ocSetDevicePropValue
  | .ptp (.setPropValue _ _) => True
  | .ptp (.setPropValue16 _ _) => True
  | .ptp (.setPropValueData _ _ _) => True
  | _ => False

/-- Operations that write no property. -/
def Op.NoWrite (op : Op) : Prop := ¬ op.Writes

/-- Operations of a handshake. -/
def Op.OfHandshake : Op → Prop
  | .mutexLock => True
  | .mutexUnlock => True
  | .cmdWrite _ => True
  | .cmdRead _ _ => True
  | _ => False

/-- No property is written. -/
def Quiet (h : History) : Prop := ∀ e ∈ h, e.1.NoWrite

/-- Every write of a property has a history of `P` in front of it. -/
def WritesAfter (P : History → Prop) (h : History) : Prop := Preceded Op.Writes P h

section Writes

variable {P Q : History → Prop} {h h' : History}

theorem Quiet.writesAfter (hq : Quiet h) : WritesAfter P h := preceded_of_none hq

theorem Quiet.append (hq : Quiet h) (hq' : Quiet h') : Quiet (h ++ h') :=
  fun e he => (List.mem_append.mp he).elim (hq e) (hq' e)

/-- The writes behind a history without any. -/
theorem WritesAfter.append (hq : Quiet h) (hafter : WritesAfter P h')
    (hPQ : ∀ h₁, P h₁ → Q (h ++ h₁)) : WritesAfter Q (h ++ h') := Preceded.append hq hafter hPQ

theorem Op.Polling.noWrite {op : Op} (hop : op.Polling) : op.NoWrite := by
  cases op with
  | ptp c => cases c <;> first | exact id | exact hop.elim
  | _ => exact id

theorem Op.OfHandshake.noWrite {op : Op} (hop : op.OfHandshake) : op.NoWrite := by
  cases op with
  | ptp c => exact hop.elim
  | _ => exact id

end Writes

/-! ### What goes in front of them -/

/-- The packet in the buffer when the camera has answered the handshake. -/
def initReply (clientName b₁ b₂ : List UInt8) : List UInt8 :=
  overwrite (overwrite (initPacket clientName) 0 b₁) 4 b₂

/-- The length of the packet, from its first bytes. -/
def replyLength (clientName b₁ : List UInt8) : Int :=
  toCInt (leNat ((overwrite (initPacket clientName) 0 b₁).take 4))

/-- The camera has acknowledged the last handshake. -/
def Acknowledged (clientName : List UInt8) (h : History) : Prop :=
  ∃ h' x₁ x₂ b₁ b₂, h = h' ++ [⟨.cmdWrite ((initPacket clientName).take 0x52), (0x52 : Int)⟩,
      ⟨.cmdRead 0 4, (x₁, b₁)⟩, ⟨.cmdRead 4 (replyLength clientName b₁ - 4), (x₂, b₂)⟩,
      ⟨.mutexUnlock, ()⟩] ∧
    0 < x₁ ∧ 0 < x₂ ∧ packetType (initReply clientName b₁ b₂) = ptpipInitCommandAck

/-- The result of a handshake whose reply has begun. -/
def replyResult (clientName b₁ : List UInt8) (x₂ : Int) (b₂ : List UInt8) : Rc × List UInt8 :=
  if x₂ ≤ 0 then (.ioErr, [])
  else if packetType (initReply clientName b₁ b₂) ≠ ptpipInitCommandAck then (.runtimeErr, [])
  else (.ok, (initReply clientName b₁ b₂).drop 28)

/-- What a handshake asks, what it is answered, and its result. -/
inductive HandshakeRun (clientName : List UInt8) : History → Rc × List UInt8 → Prop
  | unsent (x : Int) :
      HandshakeRun clientName [⟨.cmdWrite ((initPacket clientName).take 0x52), x⟩] (.ioErr, [])
  | silent {x₁ : Int} (b₁ : List UInt8) (hx₁ : x₁ ≤ 0) :
      HandshakeRun clientName [⟨.cmdWrite ((initPacket clientName).take 0x52), (0x52 : Int)⟩,
        ⟨.cmdRead 0 4, (x₁, b₁)⟩] (.ioErr, [])
  | answered {x₁ : Int} (b₁ b₂ : List UInt8) (x₂ : Int) (hx₁ : 0 < x₁) :
      HandshakeRun clientName [⟨.cmdWrite ((initPacket clientName).take 0x52), (0x52 : Int)⟩,
        ⟨.cmdRead 0 4, (x₁, b₁)⟩, ⟨.cmdRead 4 (replyLength clientName b₁ - 4), (x₂, b₂)⟩]
        (replyResult clientName b₁ x₂ b₂)

/-- OpenSession has been accepted, or refused because a session was open. -/
def SessionOpened (h : History) : Prop :=
  ∃ params payload, h = [⟨.ptp (.send ocOpenSession params), ⟨.ok, payload, ()⟩⟩] ∨
    h = [⟨.ptp (.send ocOpenSession params), ⟨.checkCode, payload, ()⟩⟩,
      ⟨.returnCode, rcSessionAlreadyOpened⟩]

/-- Polls that return 0, one more as long as the camera lets wait. -/
inductive Polls (s : PtpRuntime) : History → PtpRuntime → Prop
  | first {s' : PtpRuntime} {h : History} (hpoll : Exec fujiGetEvents s h .ok s') : Polls s h s'
  | again {s₁ s' : PtpRuntime} {h h' : History} (hpolls : Polls s h s₁) (hwaiting : s₁.Waiting)
      (hpoll : Exec fujiGetEvents s₁ h' .ok s') : Polls s (h ++ (h' ++ [⟨.usleep 100000, ()⟩])) s'

/-- The camera has granted access, which it had not when the polls began. -/
def AccessGranted (h : History) : Prop :=
  ∃ s s' h₁ h₂, h = h₁ ++ h₂ ∧ s.cameraState = minusOne ∧ Polls s h₁ s' ∧ ¬ s'.Waiting

/-- The handshake, the session and the access, in this order; between the first two the camera
may be waited for. -/
def ConnectionGranted (clientName : List UInt8) (h : History) : Prop :=
  ∃ hs hm ho ha, h = hs ++ hm ++ ho ++ ha ∧ Acknowledged clientName hs ∧ SessionOpened ho ∧
    AccessGranted ha

section Phases

variable {clientName : List UInt8} {s s' : PtpRuntime} {h : History}

theorem Acknowledged.append_left (h : History) {h' : History} (hack : Acknowledged clientName h') :
    Acknowledged clientName (h ++ h') := by
  obtain ⟨h₁, x₁, x₂, b₁, b₂, rfl, hack⟩ := hack
  exact ⟨h ++ h₁, x₁, x₂, b₁, b₂, by rw [List.append_assoc], hack⟩

theorem replyResult_ok_iff {b₁ b₂ : List UInt8} {x₂ : Int} :
    (replyResult clientName b₁ x₂ b₂).1 = .ok ↔
      0 < x₂ ∧ packetType (initReply clientName b₁ b₂) = ptpipInitCommandAck := by
  rw [replyResult]
  split_ifs with hx₂ hack
  · simp [hx₂.not_gt]
  · simp [hack]
  · simp [not_le.mp hx₂, not_not.mp hack]

theorem handshakeRun_of_exec {r : Rc × List UInt8}
    (hrun : Exec (ptpipFujiConnectHandshake_ clientName) s h r s') : HandshakeRun clientName h r := by
  obtain ⟨x, h, rfl, hsent⟩ := exec_ask_bind.mp hrun
  by_cases hx : x ≠ (0x52 : Int)
  · rw [if_pos hx] at hsent
    cases hsent
    exact .unsent x
  rw [if_neg hx] at hsent
  obtain rfl := not_not.mp hx
  obtain ⟨⟨x₁, b₁⟩, h, rfl, hhead⟩ := exec_ask_bind.mp hsent
  by_cases hx₁ : x₁ ≤ 0
  · rw [if_pos hx₁] at hhead
    cases hhead
    exact .silent b₁ hx₁
  rw [if_neg hx₁] at hhead
  obtain ⟨⟨x₂, b₂⟩, h, rfl, hrest⟩ := exec_ask_bind.mp hhead
  have hend : Exec (if x₂ ≤ 0 then (return (.ioErr, []) : PtpM (Rc × List UInt8))
      else if packetType (initReply clientName b₁ b₂) ≠ ptpipInitCommandAck then
        return (.runtimeErr, [])
      else return (.ok, (initReply clientName b₁ b₂).drop 28)) s h r s' := hrest
  rw [← apply_ite pure, ← apply_ite pure] at hend
  cases hend
  exact .answered b₁ b₂ x₂ (by omega)

theorem exec_handshake_cases {r : Rc × List UInt8}
    (hrun : Exec (ptpipFujiConnectHandshake clientName) s h r s') :
    ∃ t, h = ⟨.mutexLock, ()⟩ :: (t ++ [⟨.mutexUnlock, ()⟩]) ∧ HandshakeRun clientName t r := by
  obtain ⟨⟨⟩, h, rfl, hlocked⟩ := exec_ask_bind.mp hrun
  obtain ⟨t, r₁, s₁, h₁, rfl, hshake, hunlock⟩ := exec_of_bind hlocked
  obtain ⟨⟨⟩, h₂, rfl, hend⟩ := exec_ask_bind.mp hunlock
  cases hend
  exact ⟨t, rfl, handshakeRun_of_exec hshake⟩

/-- A handshake that returns 0 has been acknowledged. -/
theorem handshake_acknowledged {r : Rc × List UInt8}
    (hrun : Exec (ptpipFujiConnectHandshake clientName) s h r s') (hr : r.1 = .ok) :
    Acknowledged clientName h := by
  obtain ⟨t, rfl, hshake⟩ := exec_handshake_cases hrun
  cases hshake with
  | unsent x => cases hr
  | silent b₁ hx₁ => cases hr
  | answered b₁ b₂ x₂ hx₁ =>
    obtain ⟨hx₂, hack⟩ := replyResult_ok_iff.mp hr
    exact ⟨[⟨.mutexLock, ()⟩], _, x₂, b₁, b₂, rfl, hx₁, hx₂, hack⟩

/-- The second attempts of the handshake end as the first does. -/
theorem initConnection_acknowledged {r : Rc × List UInt8}
    (hrun : Exec (initConnection clientName) s h r s') (hr : r.1 = .ok) :
    Acknowledged clientName h := by
  -- a canceled attempt returns an error
  have hcanceled {s s' : PtpRuntime} {h : History} {m : PtpM (Rc × List UInt8)}
      (hrun : Exec (do
        let cancelled : Bool ← ask .checkThreadCancel
        if cancelled = true then return (.canceled, []) else m) s h r s') :
      ∃ h₁ h₂ s₁, h = h₁ ++ h₂ ∧ Exec m s₁ h₂ r s' := by
    obtain ⟨h₁, cancelled, s₁, h₂, rfl, -, hrun₁⟩ := exec_of_bind hrun
    by_cases hcancel : cancelled = true
    · rw [if_pos hcancel] at hrun₁
      cases hrun₁
      simp at hr
    · rw [if_neg hcancel] at hrun₁
      exact ⟨h₁, h₂, s₁, rfl, hrun₁⟩
  obtain ⟨h₁, r₁, s₁, h₂, rfl, hfirst, hrun₁⟩ := exec_of_bind hrun
  by_cases hruntime : r₁.1 = .runtimeErr
  · rw [if_pos hruntime] at hrun₁
    obtain ⟨h₃, h₄, s₂, rfl, hagain⟩ := hcanceled hrun₁
    exact ((handshake_acknowledged hagain hr).append_left h₃).append_left h₁
  rw [if_neg hruntime] at hrun₁
  by_cases hok : r₁.1 ≠ .ok
  · rw [if_pos hok] at hrun₁
    obtain ⟨h₃, h₄, s₂, rfl, hrun₂⟩ := hcanceled hrun₁
    obtain ⟨h₅, _, s₃, h₆, rfl, -, hrun₃⟩ := exec_of_bind hrun₂
    obtain ⟨h₇, h₈, s₄, rfl, hagain⟩ := hcanceled hrun₃
    exact ((((handshake_acknowledged hagain hr).append_left h₇).append_left h₅).append_left
      h₃).append_left h₁
  · rw [if_neg hok] at hrun₁
    cases hrun₁
    rw [List.append_nil]
    exact handshake_acknowledged hfirst hr

/-- A session that is open has been accepted, or was open already. -/
theorem openSession_opened (hrun : Exec openSession s h .ok s') : SessionOpened h := by
  obtain ⟨h₁, _, s₁, h₂, rfl, hset, hrun₁⟩ := exec_of_bind hrun
  cases hset
  obtain ⟨h₃, _, s₂, h₄, rfl, hget, hrun₂⟩ := exec_of_bind hrun₁
  cases hget
  obtain ⟨h₅, rc, s₃, h₆, rfl, hsend, hrun₃⟩ := exec_of_bind hrun₂
  rcases hsend with _ | ⟨⟨rc, payload, out⟩, ⟨⟩⟩
  by_cases hcheck : rc = .checkCode
  · subst hcheck
    rw [if_pos rfl] at hrun₃
    obtain ⟨h₇, code, s₄, h₈, rfl, hcode, hrun₄⟩ := exec_of_bind hrun₃
    rcases hcode with _ | ⟨_, ⟨⟩⟩
    by_cases hopened : code ≠ rcSessionAlreadyOpened
    · rw [if_pos hopened] at hrun₄
      cases hrun₄
    · rw [if_neg hopened] at hrun₄
      cases hrun₄
      obtain rfl := not_not.mp hopened
      exact ⟨_, payload, .inr rfl⟩
  · rw [if_neg hcheck] at hrun₃
    cases hrun₃
    exact ⟨_, payload, .inl rfl⟩

/-- The loop goes on polling until access is granted. -/
theorem waitLoop_polls {s₀ : PtpRuntime} {h₀ : History} {n : ℕ} (hpolls : Polls s₀ h₀ s)
    (hrun : Exec (waitLoop n) s h .ok s') : Polls s₀ (h₀ ++ h) s' ∧ ¬ s'.Waiting := by
  induction n generalizing s h h₀ with
  | zero => cases hrun
  | succ n ih =>
    obtain ⟨h₁, _, s₁, h₂, rfl, hget, hrun₁⟩ := exec_of_bind hrun
    cases hget
    by_cases hwaiting : s.Waiting
    · rw [if_pos hwaiting] at hrun₁
      obtain ⟨h₃, rc, s₂, h₄, rfl, hpoll, hrun₂⟩ := exec_of_bind hrun₁
      by_cases hrc : rc ≠ .ok
      · rw [if_pos hrc] at hrun₂
        cases hrun₂
        exact absurd rfl hrc
      rw [if_neg hrc] at hrun₂
      obtain rfl := not_not.mp hrc
      obtain ⟨h₅, _, s₃, h₆, rfl, hsleep, hrun₃⟩ := exec_of_bind hrun₂
      rcases hsleep with _ | ⟨_, ⟨⟩⟩
      have hrest := ih (.again hpolls hwaiting hpoll) hrun₃
      rwa [List.append_assoc, List.append_assoc] at hrest
    · rw [if_neg hwaiting] at hrun₁
      cases hrun₁
      rw [List.nil_append, List.append_nil]
      exact ⟨hpolls, hwaiting⟩

theorem waitForAccess_granted {fuel : ℕ} (hs : s.cameraState = minusOne)
    (hrun : Exec (waitForAccess fuel) s h .ok s') (h' : History) : AccessGranted (h ++ h') := by
  obtain ⟨h₁, rc, s₁, h₂, rfl, hpoll, hrun₁⟩ := exec_of_bind hrun
  by_cases hrc : rc ≠ .ok
  · rw [if_pos hrc] at hrun₁
    cases hrun₁
    exact absurd rfl hrc
  · rw [if_neg hrc] at hrun₁
    obtain rfl := not_not.mp hrc
    exact ⟨s, s', _, h', rfl, hs, waitLoop_polls (.first hpoll) hrun₁⟩

/-- A handshake is made of reads and writes of the socket, and leaves the runtime as it is. -/
theorem handshake_confines (clientName : List UInt8) :
    Confines Op.OfHandshake Eq (ptpipFujiConnectHandshake clientName) := by
  have hask {op : Op} (hop : op.OfHandshake) : Confines Op.OfHandshake Eq (ask op) :=
    confines_call hop
  refine confines_bind (hask trivial) fun _ => confines_bind ?_ fun r =>
    confines_bind (hask trivial) fun _ => confines_pure _
  refine confines_bind (hask trivial) fun x => confines_ite (confines_pure _) ?_
  refine confines_bind (hask trivial) fun reply => confines_ite (confines_pure _) ?_
  refine confines_bind (hask trivial) fun reply => confines_ite (confines_pure _) ?_
  exact confines_ite (confines_pure _) (confines_pure _)

/-- The phases in front of the polls write nothing and keep the transport. -/
theorem initConnection_confines (clientName : List UInt8) :
    Confines Op.NoWrite SameTransport (initConnection clientName) := by
  have hask {op : Op} (hop : op.NoWrite) : Confines Op.NoWrite SameTransport (ask op) :=
    confines_call hop
  have hshake : Confines Op.NoWrite SameTransport (ptpipFujiConnectHandshake clientName) :=
    (handshake_confines clientName).mono (fun _ => Op.OfHandshake.noWrite) fun s s' hs => by
      rw [hs]
      rfl
  have hcancel {m : PtpM (Rc × List UInt8)} (hm : Confines Op.NoWrite SameTransport m) :
      Confines Op.NoWrite SameTransport (do
        let cancelled : Bool ← ask .checkThreadCancel
        if cancelled = true then return (.canceled, []) else m) :=
    confines_bind (hask id) fun _ => confines_ite (confines_pure _) hm
  refine confines_bind hshake fun r => confines_ite (hcancel hshake) (confines_ite ?_ (confines_pure _))
  exact hcancel (confines_bind (hask id) fun _ => hcancel hshake)

theorem openSession_confines : Confines Op.NoWrite SameTransport openSession := by
  have hcode : Confines Op.NoWrite SameTransport (ask .returnCode) := confines_call id
  have hsend (params : List UInt32) :
      Confines Op.NoWrite SameTransport (transactRc (.send ocOpenSession params)) := by
    have hne : ¬ ocOpenSession = ocSetDevicePropValue := by decide
    refine ⟨issues_transactRc hne, ?_⟩
    exact respects_bind (transact_respects (fun _ _ => rfl) hne) fun _ => respects_pure _
  refine confines_bind (confines_modify fun s => rfl) fun _ => confines_bind confines_get fun s => ?_
  refine confines_bind (hsend _) fun rc => confines_ite ?_ (confines_pure _)
  exact confines_bind hcode fun code => confines_ite (confines_pure _) (confines_pure _)

/-- The polls write nothing, also if access is never granted. -/
theorem waitForAccess_issues (fuel : ℕ) : Issues Op.NoWrite (waitForAccess fuel) := by
  have hpoll : Issues Op.NoWrite fujiGetEvents :=
    fujiGetEvents_issues.mono fun _ => Op.Polling.noWrite
  have hsleep : Issues Op.NoWrite (ask (.usleep 100000)) := issues_call id
  refine issues_andThen hpoll ?_
  induction fuel with
  | zero => exact issues_hang
  | succ n ih =>
    refine issues_bind issues_get fun fuji => issues_ite ?_ (issues_pure _)
    exact issues_andThen hpoll (issues_bind hsleep fun _ => ih)

/-- Behind the session, writes come after access. -/
theorem setupSession_writes {fuel : ℕ} (hreach : Reaches (setupSession fuel) s h) :
    WritesAfter AccessGranted h ∧ (s.transport = .wirelessTether → Quiet h) := by
  rcases reaches_of_bind hreach with ⟨⟨⟩⟩ | ⟨h₁, _, s₁, h₂, rfl, hget, hreach₁⟩
  · exact ⟨Quiet.writesAfter (by simp [Quiet]), fun _ => by simp [Quiet]⟩
  cases hget
  by_cases htether : s.transport = .wirelessTether
  · rw [if_pos htether] at hreach₁
    have hquiet : Quiet h₂ := issues_pure _ s h₂ hreach₁
    exact ⟨hquiet.writesAfter, fun _ => hquiet⟩
  rw [if_neg htether] at hreach₁
  refine ⟨?_, fun htether' => absurd htether' htether⟩
  rcases reaches_of_bind hreach₁ with ⟨⟨⟩⟩ | ⟨h₃, _, s₂, h₄, rfl, hset, hreach₂⟩
  · exact Quiet.writesAfter (by simp [Quiet])
  cases hset
  rcases reaches_of_bind hreach₂ with hwait | ⟨h₅, rc, s₃, h₆, rfl, hwait, hreach₃⟩
  · exact Quiet.writesAfter (waitForAccess_issues fuel _ h₄ hwait)
  have hquiet : Quiet h₅ := waitForAccess_issues fuel _ h₅ hwait.reaches
  rw [List.nil_append, List.nil_append]
  by_cases hrc : rc ≠ .ok
  · rw [if_pos hrc] at hreach₃
    exact (hquiet.append (issues_pure _ s₃ h₆ hreach₃)).writesAfter
  · obtain rfl := not_not.mp hrc
    refine WritesAfter.append (P := fun _ => True) hquiet (fun _ _ _ _ _ => trivial) ?_
    exact fun h₁ _ => waitForAccess_granted rfl hwait h₁

/-- The session is open, and access granted. -/
def SessionGranted (h : History) : Prop :=
  ∃ ho ha, h = ho ++ ha ∧ SessionOpened ho ∧ AccessGranted ha

theorem session_writes {fuel : ℕ} (hreach : Reaches (andThen openSession (setupSession fuel)) s h) :
    WritesAfter SessionGranted h ∧ (s.transport = .wirelessTether → Quiet h) := by
  have hconfines := openSession_confines
  rcases reaches_of_bind hreach with hopen | ⟨h₁, rc, s₁, h₂, rfl, hopen, hreach₁⟩
  · have hquiet : Quiet h := hconfines.issues s h hopen
    exact ⟨hquiet.writesAfter, fun _ => hquiet⟩
  obtain ⟨hquiet, htransport⟩ := hconfines.respects s h₁ rc s₁ hopen
  by_cases hrc : rc ≠ .ok
  · rw [if_pos hrc] at hreach₁
    have hall := Quiet.append hquiet (issues_pure _ s₁ h₂ hreach₁)
    exact ⟨hall.writesAfter, fun _ => hall⟩
  rw [if_neg hrc] at hreach₁
  obtain rfl := not_not.mp hrc
  obtain ⟨hafter, htether⟩ := setupSession_writes hreach₁
  refine ⟨hafter.append hquiet fun ha hgranted => ⟨h₁, ha, rfl, openSession_opened hopen, hgranted⟩,
    fun hs => Quiet.append hquiet (htether (htransport.trans hs))⟩

/-- **No property is written before the connection is granted**: the handshake acknowledged,
the session open, and the camera state, which is -1 at first, set by polls to a state in which
the camera does not let wait.  A wireless tether session writes none.

`fuel` bounds the number of polls, and the history of a loop that has not come to its end is
one for a bound large enough. -/
theorem fujiSetup_writes {fuel : ℕ} (hreach : Reaches (fujiSetup fuel clientName) s h) :
    WritesAfter (ConnectionGranted clientName) h ∧
      (s.transport = .wirelessTether → Quiet h) := by
  have hconfines := initConnection_confines clientName
  rcases reaches_of_bind hreach with hinit | ⟨hs, r, s₁, h₁, rfl, hinit, hreach₁⟩
  · have hquiet : Quiet h := hconfines.issues s h hinit
    exact ⟨hquiet.writesAfter, fun _ => hquiet⟩
  obtain ⟨hquiet, htransport⟩ := hconfines.respects s hs r s₁ hinit
  by_cases hr : r.1 ≠ .ok
  · rw [if_pos hr] at hreach₁
    have hall := Quiet.append hquiet (issues_pure _ s₁ h₁ hreach₁)
    exact ⟨hall.writesAfter, fun _ => hall⟩
  rw [if_neg hr] at hreach₁
  have hack := initConnection_acknowledged hinit (not_not.mp hr)
  -- between the handshake and the session nothing is written either
  have hsession {hm h₂ : History} (hmquiet : Quiet hm)
      (hreach₂ : Reaches (andThen openSession (setupSession fuel)) s₁ h₂) :
      WritesAfter (ConnectionGranted clientName) (hs ++ (hm ++ h₂)) ∧
        (s.transport = .wirelessTether → Quiet (hs ++ (hm ++ h₂))) := by
    obtain ⟨hafter, htether⟩ := session_writes hreach₂
    rw [← List.append_assoc]
    refine ⟨hafter.append (Quiet.append hquiet hmquiet) ?_, fun htransport' =>
      (Quiet.append hquiet hmquiet).append (htether (htransport.trans htransport'))⟩
    rintro _ ⟨ho, ha, rfl, hopened, hgranted⟩
    exact ⟨hs, hm, ho, ha, by simp, hack, hopened, hgranted⟩
  have hnone {hm : History} (hmquiet : Quiet hm) :
      WritesAfter (ConnectionGranted clientName) (hs ++ hm) ∧
        (s.transport = .wirelessTether → Quiet (hs ++ hm)) :=
    ⟨(Quiet.append hquiet hmquiet).writesAfter, fun _ => Quiet.append hquiet hmquiet⟩
  have hname : Issues Op.NoWrite (ask (.sendCamName r.2)) := issues_call id
  have hsleep : Issues Op.NoWrite (ask (.usleep 50000)) := issues_call id
  rcases reaches_of_bind hreach₁ with hsend | ⟨h₂, _, s₂, h₃, rfl, hsend, hreach₂⟩
  · exact hnone (hname s₁ h₁ hsend)
  have hmquiet : Quiet h₂ := hname s₁ h₂ hsend.reaches
  rcases hsend with _ | ⟨_, ⟨⟩⟩
  rcases reaches_of_bind hreach₂ with ⟨⟨⟩⟩ | ⟨h₄, _, s₃, h₅, rfl, hget, hreach₃⟩
  · exact hnone (by simpa using hmquiet)
  cases hget
  by_cases hthinks : s₁.transport = .wirelessComm ∨ s₁.transport = .xappWirelessComm
  · rw [if_pos hthinks] at hreach₃
    rcases reaches_of_bind hreach₃ with hwait | ⟨h₆, _, s₄, h₇, rfl, hwait, hreach₄⟩
    · exact hnone (hmquiet.append (hsleep s₁ h₅ hwait))
    · have hwquiet := hmquiet.append (hsleep s₁ h₆ hwait.reaches)
      rcases hwait with _ | ⟨_, ⟨⟩⟩
      have hrest := hsession hwquiet hreach₄
      rwa [List.append_assoc] at hrest
  · rw [if_neg hthinks] at hreach₃
    exact hsession hmquiet hreach₃

end Phases

/-! ### A run -/

section Run

variable {s : PtpRuntime}

theorem handshake_run {clientName b₁ b₂ : List UInt8}
    (hack : packetType (initReply clientName b₁ b₂) = ptpipInitCommandAck) (s : PtpRuntime) :
    ∃ h, Exec (ptpipFujiConnectHandshake clientName) s h
      (.ok, (initReply clientName b₁ b₂).drop 28) s := by
  have hshake : Exec (ptpipFujiConnectHandshake_ clientName) s _ _ s :=
    exec_bind (@exec_ask s (.cmdWrite ((initPacket clientName).take 0x52)) (0x52 : Int)) <|
      exec_ite_neg (by simp) <| exec_bind (@exec_ask s (.cmdRead 0 4) ((4 : Int), b₁)) <|
      exec_ite_neg (by simp) <|
      exec_bind (@exec_ask s (.cmdRead 4 (replyLength clientName b₁ - 4)) ((4 : Int), b₂)) <|
      exec_ite_neg (by simp) <| exec_ite_neg (not_not.mpr hack) <| exec_pure _
  exact ⟨_, exec_bind (exec_ask ()) <| exec_bind hshake <| exec_bind (exec_ask ()) (exec_pure _)⟩

theorem openSession_run (s : PtpRuntime) :
    ∃ h s', Exec openSession s h .ok s' ∧ s'.transport = s.transport :=
  ⟨_, _, exec_bind (exec_modify _) <| exec_bind exec_get <|
    exec_bind (exec_transactRc ⟨.ok, [], ()⟩) <| exec_ite_neg (by simp) <| exec_pure _, rfl⟩

theorem readVersion_run (code : ℕ) (store : Int32 → PtpRuntime → PtpRuntime) (version : Int32)
    (s : PtpRuntime) :
    ∃ h, Exec (readVersion code store) s h .ok (store version (s.answered [])) :=
  ⟨_, exec_andThen (exec_transactRc ⟨.ok, [], ()⟩) <| exec_bind (exec_ask version) <|
    exec_bind (exec_modify _) (exec_pure _)⟩

/-- The mode is the first property written; it may be refused. -/
theorem configure_run_refused (s : PtpRuntime) :
    ∃ h s', Exec configure s h .ioErr s' ∧ ∃ e ∈ h, e.1.Writes := by
  have hversions : ∃ h s', Exec readVersions s h .ok s' := by
    obtain ⟨h₁, hrun₁⟩ := readVersion_run dpcGetObjectVersion
      (fun v fuji => { fuji with getObjectVersion := v }) 5 s
    obtain ⟨h₂, hrun₂⟩ := readVersion_run dpcRemoteGetObjectVersion (fun v fuji =>
      { fuji with
        remoteImageViewVersion := v
        sortByOldestFirst := if v ≥ 5 then true else fuji.sortByOldestFirst }) 5 _
    obtain ⟨h₃, hrun₃⟩ := readVersion_run dpcImageGetVersion
      (fun v fuji => { fuji with imageGetVersion := v }) 5 _
    obtain ⟨h₄, hrun₄⟩ := readVersion_run dpcRemoteVersion (fun v fuji =>
      { fuji with
        remoteVersion := v
        transport := if v < 0x20007 ∧ fuji.transport = .xappWirelessComm then .wirelessComm
          else fuji.transport }) 0x20006 _
    exact ⟨_, _, exec_andThen hrun₁ <| exec_andThen hrun₂ <| exec_andThen hrun₃ hrun₄⟩
  obtain ⟨h, s₁, hrun⟩ := hversions
  have hmode : Exec fujiConfigInitMode s₁ _ .ioErr _ :=
    exec_bind exec_get <| exec_andThen_fail (by simp)
      (@exec_transactRc s₁ (.setPropValue16 dpcClientState s₁.initMode) ⟨.ioErr, [], ()⟩)
  refine ⟨_, _, exec_andThen hrun (exec_andThen_fail (by simp) hmode),
    ⟨.ptp (.setPropValue16 dpcClientState s₁.initMode), ⟨.ioErr, [], ()⟩⟩, by simp, trivial⟩

/-- The camera grants full access. -/
def accessList : EventList := ⟨[⟨0xdf00, 2⟩], by decide⟩

theorem waitForAccess_run (s : PtpRuntime) : ∃ h s', Exec (waitForAccess 1) s h .ok s' := by
  have hquiet : ∀ e ∈ accessList.events, ¬ e.Triggers s.transport := by
    intro e he
    obtain rfl := List.mem_singleton.mp he
    rintro (⟨-, hvalue⟩ | ⟨hcode, -⟩)
    · exact absurd hvalue (by decide)
    · exact absurd hcode (by decide)
  obtain ⟨h, hpoll⟩ := fujiGetEvents_run_quiet hquiet
  have hgranted : ¬ (accessList.events.foldl .apply (s.answered accessList.encode)).Waiting := by
    rw [PtpRuntime.Waiting,
      show (accessList.events.foldl .apply (s.answered accessList.encode)).cameraState = 2 from rfl]
    decide
  exact ⟨_, _, exec_andThen hpoll <| exec_bind exec_get <| exec_ite_neg hgranted (exec_pure _)⟩

end Run

/-- A camera grants access at the first poll, and refuses the mode. -/
theorem fujiSetup_writes_wireless : ∃ h, Reaches (fujiSetup 1 []) wirelessRuntime h ∧
    (∃ e ∈ h, e.1.Writes) ∧ WritesAfter (ConnectionGranted []) h := by
  obtain ⟨hs, hshake⟩ := @handshake_run [] (leBytes 4 0x52)
    (leBytes 4 ptpipInitCommandAck) (by decide) wirelessRuntime
  have hinit : Exec (initConnection []) wirelessRuntime _ _ wirelessRuntime :=
    exec_bind hshake <| exec_ite_neg (by simp) <| exec_ite_neg (by simp) (exec_pure _)
  obtain ⟨ho, s₁, hopen, htransport⟩ := openSession_run wirelessRuntime
  obtain ⟨ha, s₂, hwait⟩ := waitForAccess_run
    { s₁ with cameraState := minusOne, numObjects := minusOne, selectedImgsMode := minusOne }
  obtain ⟨hc, s₃, hconfigure, e, he, hwrites⟩ := configure_run_refused s₂
  have hsession : Exec (setupSession 1) s₁ _ .ioErr s₃ :=
    exec_bind exec_get <| exec_ite_neg (by rw [htransport]; decide) <|
      exec_bind (exec_modify _) <| exec_andThen hwait hconfigure
  have hrun : Exec (fujiSetup 1 []) wirelessRuntime _ .ioErr s₃ :=
    exec_bind hinit <| exec_ite_neg (by simp) <| exec_bind (exec_ask ()) <|
      exec_bind exec_get <| exec_ite_pos (.inl rfl) <| exec_bind (exec_ask ()) <|
      exec_andThen hopen hsession
  exact ⟨_, hrun.reaches, ⟨e, by simp [he], hwrites⟩, (fujiSetup_writes hrun.reaches).1⟩

end Fuji
