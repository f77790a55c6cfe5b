/-
The runtime under libfuji: libpict, the frontend and the files of the host.

None of them is part of the repository.  What libfuji asks of them are the operations
`Op`, and any answer of the right type is possible.  Of libpict it is only assumed that
every transaction is sent with the current transaction id and counts it on, and replaces the
payload buffer, whatever its outcome (`transact`).

`PtpRuntime` has the part of `struct PtpRuntime` and of its `priv` that the functions
modelled on top of it read or write; an `int` of the source is a 32-bit word.  The
payload is read byte by byte, and a read outside of it is an operation of its own,
`outOfBounds`, which the memory behind the buffer answers.  Log texts, and the fields
that only tune libpict (`wait_for_response`, `max_packet_size`), are left out.
-/
import LibFuji.ByteCodec
import LibFuji.Interaction

namespace Fuji

open ByteCodec Interaction

/-- Return codes: 0, the codes of libpict that libfuji tells apart, and any other. -/
inductive Rc
  | ok
  | checkCode
  | runtimeErr
  | canceled
  | ioErr
  | noDevice
  | noPerm
  | err (code : Int)
  deriving DecidableEq, Repr

/-- `enum FujiTransport`. -/
inductive FujiTransport
  | autosave | wirelessTether | wirelessComm | usbCardReader | usbTetherShoot | rawConv | usb
  | webcam | movieShoot | xappWirelessComm
  deriving DecidableEq, Repr

/-- How a camera is connected. -/
inductive ConnectionType
  | usb | ip | ipUsb
  deriving DecidableEq, Repr

/-! ### Property codes -/

def dpcRawConvProfile : ℕ := 0xd185
def dpcStartRawConversion : ℕ := 0xd183
def dpcFreeSDRAMImages : ℕ := 0xd20e
def dpcEventsList : ℕ := 0xd212
def dpcSelectedImgsMode : ℕ := 0xd220
def dpcObjectCount : ℕ := 0xd222
def dpcCompressSmall : ℕ := 0xd226
def dpcEnableCorrectFileSize : ℕ := 0xd227
def dpcUnknownD22B : ℕ := 0xd22b
def dpcStorageID : ℕ := 0xd244
def dpcImageImportObjectCount : ℕ := 0xd620
def dpcImageImportObjectHandles : ℕ := 0xd621
def dpcCameraState : ℕ := 0xdf00
def dpcClientState : ℕ := 0xdf01
def dpcImageGetVersion : ℕ := 0xdf21
def dpcGetObjectVersion : ℕ := 0xdf22
def dpcAutoSaveVersion : ℕ := 0xdf23
def dpcRemoteVersion : ℕ := 0xdf24
def dpcRemoteGetObjectVersion : ℕ := 0xdf25
def dpcRemotePhotoViewExVersion : ℕ := 0xdf28
def dpcUnknownDF2A : ℕ := 0xdf2a

/-! ### Operations -/

/-- The part of `struct PtpObjectInfo` that libfuji uses. -/
structure ObjectInfo where
  objFormat : UInt16
  compressedSize : UInt32
  imgWidth : UInt32
  imgHeight : UInt32
  filename : String
  dateCreated : String
  keywords : String
  deriving DecidableEq, Repr

/-- `struct PtpObjectInfo oi = {0}`. -/
def ObjectInfo.zero : ObjectInfo := ⟨0, 0, 0, 0, "", "", ""⟩

/-- The part of `struct PtpDeviceInfo` that libfuji uses. -/
structure DeviceInfo where
  manufacturer : List UInt8
  model : List UInt8
  deriving DecidableEq, Repr

/-- The transactions of libpict that libfuji issues. -/
inductive PtpCommand
  /-- `ptp_send` -/
  | send (code : ℕ) (params : List UInt32)
  /-- `ptp_open_session` -/
  | openSession
  | getDeviceInfo
  | getPropValue (code : ℕ)
  | setPropValue (code : ℕ) (value : Int32)
  | setPropValue16 (code : ℕ) (value : UInt16)
  | setPropValueData (code : ℕ) (data : List UInt8) (length : UInt32)
  | getObjectInfo (handle : Int)
  | getPartialObject (handle : Int) (offset size : UInt32)
  | getObjectHandles (id format inRoot : Int)
  | getObject (handle : Int)
  | getThumbnail (handle : Int)
  | initOpenCapture (storageId format : UInt32)
  | terminateOpenCapture (trans : UInt32)
  | deleteObject (handle : Int)
  | sendObjectInfo (storageId handle : Int) (oi : ObjectInfo)
  | sendObject (data : List UInt8) (length : Int)

/-- What a transaction hands out besides its payload; of `ptp_open_session` this is the code of the
response, which `ptp_get_return_code` would tell. -/
@[reducible] def PtpCommand.Out : PtpCommand → Type
  | openSession => UInt16
  | getDeviceInfo => DeviceInfo
  | getObjectInfo _ => ObjectInfo
  | getObjectHandles _ _ _ => List UInt32
  | _ => Unit

/-- The outcome of a transaction. -/
structure Resp (c : PtpCommand) where
  rc : Rc
  payload : List UInt8
  out : c.Out

/-- How the frontend sorts the files of a storage device. -/
inductive SortOrder
  | oldestFirst | newestFirst
  deriving DecidableEq, Repr

/-- `struct PakStorageInfo`; members that are not set are zero. -/
structure StorageInfo where
  isLive : Bool
  nFilesTotal : UInt32
  sortedBy : Option SortOrder
  deriving DecidableEq, Repr

/-- The screens of the frontend. -/
inductive Screen
  | dashboard | liveview | fileViewer | fileGallery | liveFeed
  | other (screen : Int)
  deriving DecidableEq, Repr

/-- `struct PakWidget`. -/
inductive Widget
  | boolean (title : String) (v : Bool)
  | button (title : String)
  deriving DecidableEq, Repr

/-- `struct DiscoverInfo`. -/
structure DiscoverInfo where
  transport : FujiTransport
  cameraIp : Vector UInt8 64
  cameraName : Vector UInt8 64
  cameraModel : Vector UInt8 64
  clientName : Vector UInt8 64
  cameraPort : Int
  deriving DecidableEq, Repr

/-- `struct DiscoverInfo info = {0}`. -/
def DiscoverInfo.zero : DiscoverInfo where
  transport := .autosave
  cameraIp := .replicate 64 0
  cameraName := .replicate 64 0
  cameraModel := .replicate 64 0
  clientName := .replicate 64 0
  cameraPort := 0

/-- The operations of the runtime. -/
inductive Op
  | ptp (c : PtpCommand)
  /-- `ptp_get_return_code` -/
  | returnCode
  /-- `ptp_parse_prop_value` -/
  | parsePropValue
  /-- `ptpip_cmd_write` -/
  | cmdWrite (data : List UInt8)
  /-- `ptpip_cmd_read`, to an offset of the buffer -/
  | cmdRead (of : ℕ) (size : Int)
  /-- `ptpip_connect` -/
  | ptpipConnect (addr : String) (port : Int) (extraTimeout : ℕ)
  /-- `ptp_close` -/
  | ptpClose
  /-- `ptpusb_get_status` -/
  | usbGetStatus
  /-- `fuji_discover_thread` -/
  | discoverThread (clientName : List UInt8)
  /-- `ptpip_connect_events` -/
  | connectEvents (addr : String) (port : ℕ)
  /-- `ptpip_connect_video` -/
  | connectVideo (addr : String) (port : ℕ)
  | mutexLock
  | mutexUnlock
  /-- a read of the payload buffer behind the payload -/
  | outOfBounds (of : ℕ)
  /-- a read of a byte of allocated memory that nothing has been written to -/
  | unwritten (of : ℕ)
  /-- a read behind the end of an array of handles -/
  | outOfArray (i : ℕ)
  /-- `app_check_thread_cancel` -/
  | checkThreadCancel
  /-- `app_report_download_speed` -/
  | reportDownloadSpeed (size : ℕ)
  /-- `plat_update_object_info` -/
  | updateObjectInfo (handle : Int) (oi : ObjectInfo)
  /-- the callback `info` of a download -/
  | downloadInfo (oi : ObjectInfo)
  /-- the callback `handle_add` of a download -/
  | handleAdd (buf : List UInt8) (len offset total : UInt32)
  /-- `app_send_cam_name` -/
  | sendCamName (name : List UInt8)
  /-- `pak_rt_get_client_name` -/
  | clientName
  /-- `pak_rt_get_setup_option` -/
  | setupOption
  /-- `pak_rt_fatal_error` -/
  | fatalError (text : String)
  /-- `pak_bt_device_update`, and whether the device is connected then -/
  | btDeviceUpdate
  /-- `pak_rt_set_screen_supported` -/
  | setScreenSupported (screen : Screen)
  /-- `pak_rt_set_widget` -/
  | setWidget (name : String) (widget : Widget)
  /-- `pak_rt_set_storage_info` -/
  | setStorageInfo (name : String) (info : StorageInfo)
  /-- `pak_rt_add_file_metadata` -/
  | addFileMetadata (index : UInt32) (oi : ObjectInfo)
  /-- `pak_rt_add_file_contents`, of a file by its index in the view and its storage -/
  | addFileContents (index : Int) (storageName : String) (data : Option (List UInt8)) (size : ℕ)
      (offset total : UInt32)
  | fopen (path mode : String)
  | fclose
  /-- `ftell` at the end of the file -/
  | fileSize
  | malloc (size : Int)
  | fread (size : Int)
  | fwrite (data : List UInt8)
  | usleep (usec : ℕ)

/-- The answers to an operation. -/
@[reducible] def Op.Ret : Op → Type
  | ptp c => Resp c
  | returnCode => UInt16
  | parsePropValue => Int32
  | cmdWrite _ => Int
  | cmdRead _ _ => Int × List UInt8
  | ptpipConnect _ _ _ => Rc
  | usbGetStatus => Rc
  | discoverThread _ => Int × DiscoverInfo
  | connectEvents _ _ => Rc
  | connectVideo _ _ => Rc
  | outOfBounds _ => UInt8
  | unwritten _ => UInt8
  | outOfArray _ => UInt32
  | checkThreadCancel => Bool
  | clientName => List UInt8
  | setupOption => Option String
  | btDeviceUpdate => Bool
  | handleAdd _ _ _ _ => Int
  | fopen _ _ => Bool
  | fileSize => Int
  | malloc _ => Option (List UInt8)
  | fread _ => List UInt8
  | _ => Unit

/-! ### The runtime -/

/-- The state of the runtime. -/
structure PtpRuntime where
  connectionType : ConnectionType
  session : UInt32
  transaction : UInt32
  ipAddress : String
  transport : FujiTransport
  cameraState : UInt32
  selectedImgsMode : UInt32
  getObjectVersion : Int32
  remoteImageViewVersion : Int32
  remoteImageViewExVersion : Int32
  imageGetVersion : Int32
  remoteVersion : Int32
  openedLiveviewSockets : Bool
  numObjects : UInt32
  storageDeviceName : String
  openCaptureTransId : UInt32
  allowAutosaveThumbnails : Bool
  sortByOldestFirst : Bool
  compressImagesForSmartphone : Bool
  currentDownloadingOi : ObjectInfo
  nItemsDownloaded : UInt32
  payload : List UInt8

/-- `fuji_ptp_new`. -/
def fujiPtpNew : PtpRuntime where
  connectionType := .ipUsb
  session := 0
  transaction := 0
  ipAddress := ""
  transport := .autosave
  cameraState := 0
  selectedImgsMode := 0
  getObjectVersion := 0
  remoteImageViewVersion := 0
  remoteImageViewExVersion := 0
  imageGetVersion := 0
  remoteVersion := 0
  openedLiveviewSockets := false
  numObjects := 0
  storageDeviceName := ""
  openCaptureTransId := 0
  allowAutosaveThumbnails := false
  sortByOldestFirst := false
  compressImagesForSmartphone := false
  currentDownloadingOi := .zero
  nItemsDownloaded := 0
  payload := []

/-- The runtime behind a transaction. -/
def PtpRuntime.answered (s : PtpRuntime) (payload : List UInt8) : PtpRuntime :=
  { s with transaction := s.transaction + 1, payload := payload }

@[simp] theorem PtpRuntime.answered_payload (s : PtpRuntime) (payload : List UInt8) :
    (s.answered payload).payload = payload := rfl

@[simp] theorem PtpRuntime.answered_transport (s : PtpRuntime) (payload : List UInt8) :
    (s.answered payload).transport = s.transport := rfl

/-- An `int` made of a `long`, a `size_t` or an `unsigned int`. -/
def toCInt (n : Int) : Int := n.bmod (2 ^ 32)

/-- Programs on the runtime. -/
abbrev PtpM : Type → Type := StateT PtpRuntime (Prog Op Op.Ret)

/-- Histories of the runtime. -/
abbrev History : Type := List (Event Op Op.Ret)

/-- Ask the environment. -/
def ask (op : Op) : PtpM op.Ret := call op

/-- A transaction: it is counted, and its payload replaces the one before. -/
def transact (c : PtpCommand) : PtpM (Resp c) := do
  let r : Resp c ← ask (.ptp c)
  modify fun s => s.answered r.payload
  return r

/-- A transaction of which only the return code matters. -/
def transactRc (c : PtpCommand) : PtpM Rc := do
  let r ← transact c
  return r.rc

/-- `rc = m; if (rc) return rc;` in front of `k`. -/
def andThen (m k : PtpM Rc) : PtpM Rc := do
  let rc ← m
  if rc ≠ .ok then return rc else k

/-- Take the mutex. -/
def ptpMutexLock : PtpM Unit := ask .mutexLock

/-- Release the mutex. -/
def ptpMutexUnlock : PtpM Unit := ask .mutexUnlock

/-- The byte at an offset of the payload buffer. -/
def readU8 (of : ℕ) : PtpM UInt8 := do
  let s ← get
  match s.payload[of]? with
  | some b => return b
  | none => ask (.outOfBounds of)

/-- The 16-bit number at an offset of the payload buffer. -/
def readU16 (of : ℕ) : PtpM UInt16 := do
  let b0 ← readU8 of
  let b1 ← readU8 (of + 1)
  return UInt16.ofNat (leNat [b0, b1])

/-- The 32-bit number at an offset of the payload buffer. -/
def readU32 (of : ℕ) : PtpM UInt32 := do
  let b0 ← readU8 of
  let b1 ← readU8 (of + 1)
  let b2 ← readU8 (of + 2)
  let b3 ← readU8 (of + 3)
  return UInt32.ofNat (leNat [b0, b1, b2, b3])

section Rules

variable {h : History} {s : PtpRuntime}

@[simp] theorem wp_ask {op : Op} {Q : History → op.Ret → PtpRuntime → Prop} :
    wp (ask op) Q h s ↔ ∀ r : op.Ret, Q (h ++ [⟨op, r⟩]) r s := Iff.rfl

@[simp] theorem wp_transact {c : PtpCommand} {Q : History → Resp c → PtpRuntime → Prop} :
    wp (transact c) Q h s ↔
      ∀ r : Resp c, Q (h ++ [⟨.ptp c, r⟩]) r (s.answered r.payload) := Iff.rfl

@[simp] theorem wp_ptpMutexLock {Q : History → Unit → PtpRuntime → Prop} :
    wp ptpMutexLock Q h s ↔ ∀ r, Q (h ++ [⟨.mutexLock, r⟩]) r s := Iff.rfl

@[simp] theorem wp_ptpMutexUnlock {Q : History → Unit → PtpRuntime → Prop} :
    wp ptpMutexUnlock Q h s ↔ ∀ r, Q (h ++ [⟨.mutexUnlock, r⟩]) r s := Iff.rfl

theorem exec_ask {op : Op} (r : op.Ret) : Exec (ask op) s [⟨op, r⟩] r s := exec_call r

theorem exec_transact {c : PtpCommand} (r : Resp c) :
    Exec (transact c) s [⟨.ptp c, r⟩] r (s.answered r.payload) := by
  rw [transact]
  exact exec_bind (@exec_ask s (.ptp c) r) (exec_bind (exec_modify _) (exec_pure r))

theorem exec_transactRc {c : PtpCommand} (r : Resp c) :
    Exec (transactRc c) s [⟨.ptp c, r⟩] r.rc (s.answered r.payload) :=
  exec_bind (exec_transact r) (exec_pure _)

theorem exec_ask_bind {α : Type} {op : Op} {f : op.Ret → PtpM α} {a : α} {s' : PtpRuntime} :
    Exec (ask op >>= f) s h a s' ↔ ∃ r h', h = ⟨op, r⟩ :: h' ∧ Exec (f r) s h' a s' :=
  exec_call_bind

theorem exec_transact_bind {α : Type} {c : PtpCommand} {f : Resp c → PtpM α} {a : α}
    {s' : PtpRuntime} : Exec (transact c >>= f) s h a s' ↔
      ∃ r h', h = ⟨.ptp c, r⟩ :: h' ∧ Exec (f r) (s.answered r.payload) h' a s' := by
  constructor
  · rintro (_ | ⟨r, hr⟩)
    exact ⟨r, _, rfl, hr⟩
  · rintro ⟨r, h', rfl, hr⟩
    exact .call r hr

theorem exec_transactRc_bind {α : Type} {c : PtpCommand} {f : Rc → PtpM α} {a : α}
    {s' : PtpRuntime} : Exec (transactRc c >>= f) s h a s' ↔
      ∃ r h', h = ⟨.ptp c, r⟩ :: h' ∧ Exec (f r.rc) (s.answered r.payload) h' a s' :=
  exec_transact_bind

theorem exec_andThen {m k : PtpM Rc} {h' : History} {rc : Rc} {s' s'' : PtpRuntime}
    (hm : Exec m s h .ok s') (hk : Exec k s' h' rc s'') : Exec (andThen m k) s (h ++ h') rc s'' :=
  exec_bind hm (exec_ite_neg (by simp) hk)

theorem exec_andThen_fail {m k : PtpM Rc} {rc : Rc} {s' : PtpRuntime} (hrc : rc ≠ .ok)
    (hm : Exec m s h rc s') : Exec (andThen m k) s (h ++ []) rc s' :=
  exec_bind hm (exec_ite_pos hrc (exec_pure _))

/-- Anything may happen to the state. -/
abbrev AnyState : PtpRuntime → PtpRuntime → Prop := fun _ _ => True

instance : Std.Refl AnyState := ⟨fun _ => trivial⟩

instance : IsTrans PtpRuntime AnyState := ⟨fun _ _ _ _ _ => trivial⟩

theorem transact_respects {R : PtpRuntime → PtpRuntime → Prop} [Std.Refl R]
    [IsTrans PtpRuntime R] (hR : ∀ s p, R s (s.answered p)) {A : Op → Prop}
    {c : PtpCommand} (hc : A (.ptp c)) : Respects A R (transact c) :=
  respects_bind (respects_call hc) fun _ =>
    respects_bind (respects_modify fun s => hR s _) fun _ => respects_pure _

theorem obeys_andThen {P : PtpRuntime → History → PtpRuntime → Prop} [Composes P] {m k : PtpM Rc}
    (hm : Obeys P m) (hk : Obeys P k) : Obeys P (andThen m k) :=
  obeys_bind hm fun _ => obeys_ite (obeys_pure _) hk

/-- A relation that composes and holds of every operation of `A` by itself. -/
class Transacts (A : Op → Prop) (P : PtpRuntime → History → PtpRuntime → Prop) : Prop
    extends Composes P where
  ask : ∀ s (op : Op) (r : op.Ret), A op → (∀ c, op ≠ .ptp c) → P s [⟨op, r⟩] s
  transact : ∀ s (c : PtpCommand) (r : Resp c), A (.ptp c) →
    P s [⟨.ptp c, r⟩] (s.answered r.payload)

section Transacts

variable {A : Op → Prop} {P : PtpRuntime → History → PtpRuntime → Prop} [Transacts A P]

theorem obeys_ask {op : Op} (hop : A op) (hptp : ∀ c, op ≠ .ptp c) : Obeys P (ask op) :=
  obeys_call fun s r => Transacts.ask s op r hop hptp

theorem obeys_transact {c : PtpCommand} (hc : A (.ptp c)) : Obeys P (transact c) := by
  rintro s _ _ _ (_ | ⟨r, ⟨⟩⟩)
  exact Transacts.transact s c _ hc

theorem obeys_transactRc {c : PtpCommand} (hc : A (.ptp c)) : Obeys P (transactRc c) :=
  obeys_bind (obeys_transact hc) fun _ => obeys_pure _

theorem obeys_readU8 (hA : ∀ of, A (.outOfBounds of)) (of : ℕ) : Obeys P (readU8 of) := by
  refine obeys_bind obeys_get fun s => ?_
  cases s.payload[of]? with
  | none => exact obeys_ask (hA of) (by simp)
  | some b => exact obeys_pure b

theorem obeys_readU16 (hA : ∀ of, A (.outOfBounds of)) (of : ℕ) : Obeys P (readU16 of) :=
  obeys_bind (obeys_readU8 hA of) fun _ => obeys_bind (obeys_readU8 hA (of + 1)) fun _ =>
    obeys_pure _

theorem obeys_readU32 (hA : ∀ of, A (.outOfBounds of)) (of : ℕ) : Obeys P (readU32 of) :=
  obeys_bind (obeys_readU8 hA of) fun _ => obeys_bind (obeys_readU8 hA (of + 1)) fun _ =>
    obeys_bind (obeys_readU8 hA (of + 2)) fun _ => obeys_bind (obeys_readU8 hA (of + 3)) fun _ =>
      obeys_pure _

end Transacts

section Issues

variable {A : Op → Prop}

theorem issues_ask {op : Op} (hop : A op) : Issues A (ask op) := issues_call hop

theorem issues_transact {c : PtpCommand} (hc : A (.ptp c)) : Issues A (transact c) :=
  issues_bind (issues_ask hc) fun _ => issues_bind (issues_modify _) fun _ => issues_pure _

theorem issues_transactRc {c : PtpCommand} (hc : A (.ptp c)) : Issues A (transactRc c) :=
  issues_bind (issues_transact hc) fun _ => issues_pure _

theorem issues_andThen {m k : PtpM Rc} (hm : Issues A m) (hk : Issues A k) :
    Issues A (andThen m k) :=
  issues_bind hm fun _ => issues_ite (issues_pure _) hk

theorem issues_readU8 (hA : ∀ of, A (.outOfBounds of)) (of : ℕ) : Issues A (readU8 of) := by
  refine issues_bind issues_get fun s => ?_
  cases s.payload[of]? with
  | none => exact issues_ask (hA of)
  | some b => exact issues_pure b

theorem issues_readU16 (hA : ∀ of, A (.outOfBounds of)) (of : ℕ) : Issues A (readU16 of) :=
  issues_bind (issues_readU8 hA of) fun _ => issues_bind (issues_readU8 hA (of + 1)) fun _ =>
    issues_pure _

theorem issues_readU32 (hA : ∀ of, A (.outOfBounds of)) (of : ℕ) : Issues A (readU32 of) :=
  issues_bind (issues_readU8 hA of) fun _ => issues_bind (issues_readU8 hA (of + 1)) fun _ =>
    issues_bind (issues_readU8 hA (of + 2)) fun _ => issues_bind (issues_readU8 hA (of + 3)) fun _ =>
      issues_pure _

end Issues

theorem readU8_eq {of : ℕ} {b : UInt8} (hb : s.payload[of]? = some b) :
    readU8 of s = .ret (b, s) := by
  rw [readU8, bind_of_ret (m := get) (a := s) rfl]
  simp only [hb]
  rfl

/-- Nothing is read from behind the payload. -/
def StaysInside (h : History) : Prop := ∀ e ∈ h, ∀ of, e.1 ≠ .outOfBounds of

theorem reaches_ask_bind {α : Type} {op : Op} {f : op.Ret → PtpM α} :
    Reaches (ask op >>= f) s h ↔ h = [] ∨ ∃ r h', h = ⟨op, r⟩ :: h' ∧ Reaches (f r) s h' :=
  reaches_call_bind

theorem reaches_transact_bind {α : Type} {c : PtpCommand} {f : Resp c → PtpM α} :
    Reaches (transact c >>= f) s h ↔
      h = [] ∨ ∃ r h', h = ⟨.ptp c, r⟩ :: h' ∧ Reaches (f r) (s.answered r.payload) h' := by
  constructor
  · rintro (_ | ⟨r, hr⟩)
    · exact .inl rfl
    · exact .inr ⟨r, _, rfl, hr⟩
  · rintro (rfl | ⟨r, h', rfl, hr⟩)
    · exact .start _
    · exact .call r hr

section Outside

variable {of : ℕ}

theorem readU8_outside (hof : s.payload.length ≤ of) :
    Reaches (readU8 of) s [⟨.outOfBounds of, (0 : UInt8)⟩] := by
  rw [Reaches, readU8, bind_of_ret (m := get) (a := s) rfl, List.getElem?_eq_none hof]
  show Reaches (ask (.outOfBounds of)) s _
  exact (exec_ask _).reaches

/-- A longer number is read from behind the payload in its first byte, or behind it. -/
theorem readU8_bind_outside {α : Type} {f : UInt8 → PtpM α}
    (hf : of < s.payload.length → ∀ b, ∃ x, Reaches (f b) s [⟨.outOfBounds x, (0 : UInt8)⟩]) :
    ∃ x, Reaches (readU8 of >>= f) s [⟨.outOfBounds x, (0 : UInt8)⟩] := by
  rcases Nat.lt_or_ge of s.payload.length with hlt | hge
  · obtain ⟨x, hx⟩ := hf hlt s.payload[of]
    have hread := exec_of_ret (readU8_eq (List.getElem?_eq_getElem hlt))
    exact ⟨x, reaches_bind_right hread hx⟩
  · exact ⟨of, reaches_bind_left (readU8_outside hge)⟩

theorem readU16_outside (hof : s.payload.length < of + 2) :
    ∃ x, Reaches (readU16 of) s [⟨.outOfBounds x, (0 : UInt8)⟩] :=
  readU8_bind_outside fun _ _ => ⟨of + 1, reaches_bind_left (readU8_outside (by omega))⟩

theorem readU32_outside (hof : s.payload.length < of + 4) :
    ∃ x, Reaches (readU32 of) s [⟨.outOfBounds x, (0 : UInt8)⟩] :=
  readU8_bind_outside fun _ _ => readU8_bind_outside fun _ _ => readU8_bind_outside fun _ _ =>
    ⟨of + 3, reaches_bind_left (readU8_outside (by omega))⟩

end Outside

/-- Inside the payload a 16-bit number is read without asking the environment. -/
theorem readU16_eq {of v : ℕ} (hv : readLe s.payload of 2 = some v) :
    readU16 of s = .ret (UInt16.ofNat v, s) := by
  obtain ⟨hlen, rfl⟩ := readLe_eq_some.mp hv
  have h0 := List.getElem?_eq_getElem (show of < s.payload.length by omega)
  have h1 := List.getElem?_eq_getElem (show of + 1 < s.payload.length by omega)
  have htake : (s.payload.drop of).take 2
      = [s.payload[of], s.payload[of + 1]] := by
    rw [List.drop_eq_getElem_cons (by omega), List.take_succ_cons,
      List.drop_eq_getElem_cons (by omega), List.take_succ_cons, List.take_zero]
  rw [readU16, bind_of_ret (readU8_eq h0), bind_of_ret (readU8_eq h1), htake]
  rfl

theorem readU32_eq {of v : ℕ} (hv : readLe s.payload of 4 = some v) :
    readU32 of s = .ret (UInt32.ofNat v, s) := by
  obtain ⟨hlen, rfl⟩ := readLe_eq_some.mp hv
  have h0 := List.getElem?_eq_getElem (show of < s.payload.length by omega)
  have h1 := List.getElem?_eq_getElem (show of + 1 < s.payload.length by omega)
  have h2 := List.getElem?_eq_getElem (show of + 2 < s.payload.length by omega)
  have h3 := List.getElem?_eq_getElem (show of + 3 < s.payload.length by omega)
  have htake : (s.payload.drop of).take 4
      = [s.payload[of], s.payload[of + 1], s.payload[of + 2], s.payload[of + 3]] := by
    rw [List.drop_eq_getElem_cons (by omega), List.take_succ_cons,
      List.drop_eq_getElem_cons (by omega), List.take_succ_cons,
      List.drop_eq_getElem_cons (by omega), List.take_succ_cons,
      List.drop_eq_getElem_cons (by omega), List.take_succ_cons, List.take_zero]
  rw [readU32, bind_of_ret (readU8_eq h0), bind_of_ret (readU8_eq h1),
    bind_of_ret (readU8_eq h2), bind_of_ret (readU8_eq h3), htake]
  rfl

end Rules

end Fuji
