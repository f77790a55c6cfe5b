/-
The functions that take the mutex of the runtime (`ptp_mutex_lock`, `ptp_mutex_unlock`).

Thirteen functions take it, some of them while it is held already, and every way out of them has to
give it back.  Two of them have many returns, for which the model has a common end; they are written
out here as they are in `fuji.c`, and are the same programs (`fujiGetEventsReturns_eq`,
`ptpGetPartialExifReturns_eq`).

Whatever a function calls may call these functions in turn, while the mutex is held
(`LockCall.outermost`).
-/
import LibFuji.LiveviewFrame
import LibFuji.ProcessRaf
import LibFuji.Progress
import LibFuji.PropList
import LibFuji.Thumb

namespace Fuji

open Interaction Exif

/-! ### The code: returns that give the mutex back -/

/-- `if (rc) { ptp_mutex_unlock(r); return rc; }`; without a result it goes on. -/
def leaveOnError (rc : Rc) : PtpM (Option Rc) := do
  if rc ≠ .ok then
    ptpMutexUnlock
    return some rc
  else return none

/-- The loop of `fuji_get_events` over the handles, with its return. -/
def queueFreeSDRAMImagesReturns (a : List UInt32) (i : ℕ) : ℕ → PtpM (Option Rc)
  | 0 => return none
  | n + 1 => do
    let handle ← handleAt a i
    let rc ← appQueueFileForDownload (toCInt handle.toNat)
    let left ← leaveOnError rc
    match left with
    | some rc => return some rc
    | none => queueFreeSDRAMImagesReturns a i n

/-- The body of the loop of `fuji_get_events`, with its returns. -/
def onEventReturns (i : ℕ) (code : UInt16) (value : UInt32) : PtpM (Option Rc) := do
  if code.toNat = dpcSelectedImgsMode then
    modify fun fuji => { fuji with selectedImgsMode := value }
    return none
  else if code.toNat = dpcObjectCount then
    modify fun fuji => { fuji with numObjects := value }
    return none
  else if code.toNat = dpcCameraState then
    modify fun fuji => { fuji with cameraState := value }
    if value = fujiMultipleTransfer then
      let rc ← onMultipleTransfer
      leaveOnError rc
    else return none
  else if code.toNat = dpcFreeSDRAMImages then
    let fuji ← get
    if fuji.transport = .wirelessTether then
      let r ← transact (.getObjectHandles (-1) 0 0)
      let a : List UInt32 := r.out
      let left ← leaveOnError r.rc
      match left with
      | some rc => return some rc
      | none => queueFreeSDRAMImagesReturns a i (toCInt a.length).toNat
    else return none
  else return none

/-- The loop of `fuji_get_events` that handles the events, and what follows it. -/
def eventLoopReturns : ℕ → ℕ → PtpM Rc
  | 0, _ => do
    ptpMutexUnlock
    return .ok
  | n + 1, i => do
    let length ← readU16 0
    if i < length.toNat then
      let code ← readU16 (2 + 6 * i)
      let value ← readU32 (4 + 6 * i)
      let left ← onEventReturns i code value
      match left with
      | some rc => return rc
      | none => eventLoopReturns n (i + 1)
    else
      ptpMutexUnlock
      return .ok

/-- `fuji_get_events`. -/
def fujiGetEventsReturns : PtpM Rc := do
  ptpMutexLock
  let r ← transact (.getPropValue dpcEventsList)
  if r.rc = .checkCode then
    ptpMutexUnlock
    return .ok
  else if r.rc ≠ .ok then
    ptpMutexUnlock
    return r.rc
  else
    let _ ← readU16 0
    logLoop 65536 0
    eventLoopReturns 65536 0

/-- `ptp_get_partial_exif` from its label `end` on. -/
def endPartialExif (rc : Rc) (of size : UInt32) : PtpM (Rc × UInt32 × UInt32) := do
  ptpMutexUnlock
  return (rc, of, size)

/-- `ptp_get_partial_exif`. -/
def ptpGetPartialExifReturns (handle : Int) : PtpM (Rc × UInt32 × UInt32) := do
  ptpMutexLock
  let rc ← fujiGetEventsReturns
  if rc ≠ .ok then
    ptpMutexUnlock
    return (rc, 0, 0)
  else
    let r ← transact (.getPartialObject handle 0 0x4000)
    if r.rc = .checkCode then
      ptpMutexUnlock
      return (.runtimeErr, 0, 0)
    else if r.rc ≠ .ok then
      ptpMutexUnlock
      return (r.rc, 0, 0)
    else
      let s ← get
      let temp : MyAddInfo :=
        ⟨Memory.malloc.memcpy 0 s.payload, UInt32.ofNat s.payload.length⟩
      let exif ← (exifStartRaw ExifParser.zero).interp (exifHandler handle) temp
      let c := exif.2
      if c.thumbOf = 0 ∨ c.thumbSize = 0 then endPartialExif .runtimeErr 0 0
      else
        let rc ← fujiGetEventsReturns
        if rc ≠ .ok then endPartialExif rc c.thumbOf c.thumbSize
        else
          let rc ← fujiGetEventsReturns
          if rc ≠ .ok then endPartialExif rc c.thumbOf c.thumbSize
          else
            let rc ← fujiGetEventsReturns
            if rc ≠ .ok then endPartialExif rc c.thumbOf c.thumbSize
            else
              let rc ← fujiGetEventsReturns
              endPartialExif rc c.thumbOf c.thumbSize

/-! ### The same programs -/

theorem leaveOnError_of_ne {rc : Rc} (hrc : rc ≠ .ok) : leaveOnError rc = (do
    ptpMutexUnlock
    return some rc) := by
  rw [leaveOnError, if_pos hrc]

theorem leaveOnError_ok : leaveOnError .ok = pure none := rfl

theorem queueFreeSDRAMImagesReturns_eq (a : List UInt32) (i n : ℕ) :
    queueFreeSDRAMImagesReturns a i n = queueFreeSDRAMImages a i n >>= leaveOnError := by
  induction n with
  | zero => rfl
  | succ n ih =>
    rw [queueFreeSDRAMImagesReturns, queueFreeSDRAMImages, bind_assoc]
    refine bind_congr fun handle => ?_
    rw [bind_assoc]
    refine bind_congr fun rc => ?_
    by_cases hrc : rc = .ok
    · subst hrc
      rw [if_neg (not_not_intro rfl), leaveOnError_ok, pure_bind, ih]
    · rw [if_pos hrc, pure_bind, leaveOnError_of_ne hrc]
      rfl

theorem onEventReturns_eq (i : ℕ) (code : UInt16) (value : UInt32) :
    onEventReturns i code value = onEvent i code value >>= leaveOnError := by
  rw [onEventReturns, onEvent]
  by_cases h1 : code.toNat = dpcSelectedImgsMode
  · rw [if_pos h1, if_pos h1]
    rfl
  rw [if_neg h1, if_neg h1]
  by_cases h2 : code.toNat = dpcObjectCount
  · rw [if_pos h2, if_pos h2]
    rfl
  rw [if_neg h2, if_neg h2]
  by_cases h3 : code.toNat = dpcCameraState
  · rw [if_pos h3, if_pos h3, bind_assoc]
    refine bind_congr fun _ => ?_
    by_cases hvalue : value = fujiMultipleTransfer
    · rw [if_pos hvalue, if_pos hvalue]
    · rw [if_neg hvalue, if_neg hvalue]
      rfl
  rw [if_neg h3, if_neg h3]
  by_cases h4 : code.toNat = dpcFreeSDRAMImages
  · rw [if_pos h4, if_pos h4, bind_assoc]
    refine bind_congr fun fuji => ?_
    by_cases htether : fuji.transport = .wirelessTether
    · rw [if_pos htether, if_pos htether, onFreeSDRAMImages, bind_assoc]
      refine bind_congr fun r => ?_
      by_cases hrc : r.rc = .ok
      · rw [hrc, if_neg (not_not_intro rfl), leaveOnError_ok, pure_bind,
          queueFreeSDRAMImagesReturns_eq]
      · rw [if_pos hrc, pure_bind, leaveOnError_of_ne hrc]
        rfl
    · rw [if_neg htether, if_neg htether]
      rfl
  · rw [if_neg h4, if_neg h4]
    rfl

theorem eventLoopReturns_eq (n i : ℕ) : eventLoopReturns n i = (do
    let rc ← eventLoop n i
    ptpMutexUnlock
    return rc) := by
  induction n generalizing i with
  | zero => rfl
  | succ n ih =>
    rw [eventLoopReturns, eventLoop, bind_assoc]
    refine bind_congr fun length => ?_
    by_cases hi : i < length.toNat
    · rw [if_pos hi, if_pos hi, bind_assoc]
      refine bind_congr fun code => ?_
      rw [bind_assoc]
      refine bind_congr fun value => ?_
      rw [bind_assoc, onEventReturns_eq, bind_assoc]
      refine bind_congr fun rc => ?_
      by_cases hrc : rc = .ok
      · subst hrc
        rw [leaveOnError_ok, pure_bind, if_neg (not_not_intro rfl), ih]
      · rw [leaveOnError_of_ne hrc, if_pos hrc]
        rfl
    · rw [if_neg hi, if_neg hi]
      rfl

/-- **`fuji_get_events` with its returns is the program that has a common end.** -/
theorem fujiGetEventsReturns_eq : fujiGetEventsReturns = fujiGetEvents := by
  rw [fujiGetEventsReturns, fujiGetEvents]
  simp only [eventLoopReturns_eq]

/-- The polls of `ptp_get_partial_exif` with their returns. -/
theorem settle_bind (of size : UInt32) : (do
      let rc ← settle
      endPartialExif rc of size) = (do
      let rc ← fujiGetEvents
      if rc ≠ .ok then endPartialExif rc of size
      else
        let rc ← fujiGetEvents
        if rc ≠ .ok then endPartialExif rc of size
        else
          let rc ← fujiGetEvents
          if rc ≠ .ok then endPartialExif rc of size
          else
            let rc ← fujiGetEvents
            endPartialExif rc of size) := by
  have hpoll {m : PtpM Rc} {k : Rc → PtpM (Rc × UInt32 × UInt32)}
      (hm : m >>= (endPartialExif · of size) = fujiGetEvents >>= k) :
      (do
        let rc ← fujiGetEvents
        if rc ≠ .ok then return rc else m) >>= (endPartialExif · of size) = (do
        let rc ← fujiGetEvents
        if rc ≠ .ok then endPartialExif rc of size else fujiGetEvents >>= k) := by
    rw [bind_assoc]
    refine bind_congr fun rc => ?_
    by_cases hrc : rc = .ok
    · rw [if_neg (not_not_intro hrc), if_neg (not_not_intro hrc), hm]
    · rw [if_pos hrc, if_pos hrc, pure_bind]
  exact hpoll (hpoll (hpoll rfl))

/-- **`ptp_get_partial_exif`, too.** -/
theorem ptpGetPartialExifReturns_eq (handle : Int) :
    ptpGetPartialExifReturns handle = ptpGetPartialExif handle := by
  rw [ptpGetPartialExifReturns, ptpGetPartialExif, locateThumb, fujiGetEventsReturns_eq]
  refine bind_congr fun _ => ?_
  rw [bind_assoc]
  refine bind_congr fun rc => ?_
  by_cases hrc : rc = .ok
  · rw [if_neg (not_not_intro hrc), if_neg (not_not_intro hrc), bind_assoc]
    refine bind_congr fun r => ?_
    by_cases hcheck : r.rc = .checkCode
    · rw [if_pos hcheck, if_pos hcheck, pure_bind, if_pos (by simp)]
    rw [if_neg hcheck, if_neg hcheck]
    by_cases hok : r.rc = .ok
    · rw [if_neg (not_not_intro hok), if_neg (not_not_intro hok), bind_assoc]
      refine bind_congr fun s => ?_
      rw [bind_assoc]
      refine bind_congr fun exif => ?_
      by_cases hthumb : exif.2.thumbOf = 0 ∨ exif.2.thumbSize = 0
      · rw [if_pos hthumb, if_pos hthumb, pure_bind, if_pos (by simp)]
        rfl
      · rw [if_neg hthumb, if_neg hthumb, pure_bind, if_neg (by simp)]
        exact (settle_bind _ _).symm
    · rw [if_pos hok, if_pos hok, pure_bind, if_pos hok]
  · rw [if_pos hrc, if_pos hrc, pure_bind, if_pos hrc]

/-! ### The code: the other functions -/

def ocFujiGetDeviceInfo : ℕ := 0x902b

/-- `PTP_DPC_FUJI_BatteryInfo1`. -/
def dpcBatteryInfo1 : ℕ := 0xd36a

/-- `fuji_get_device_info`, with the list of the properties. -/
def fujiGetDeviceInfo (reg : Registry) : PtpM (Rc × Registry) := do
  ptpMutexLock
  let rc ← transactRc (.send ocFujiGetDeviceInfo [])
  let registered ← fujiRegisterDeviceInfo reg
  match registered with
  | none => hang -- ptp_panic()
  | some (reg, _) =>
    ptpMutexUnlock
    return (rc, reg)

/-- `fuji_get_battery_percent`, with what it makes of `*value`. -/
def fujiGetBatteryPercent (value : Int32) : PtpM (Rc × Int32) := do
  ptpMutexLock
  let rc ← transactRc (.getPropValue dpcBatteryInfo1)
  let value : Int32 ← if rc = .ok then ask .parsePropValue else pure value
  ptpMutexUnlock
  return (rc, value)

/-- `fujiusb_download_backup`; the code `PTP_UNSUPPORTED` is one of libpict. -/
def fujiusbDownloadBackup (unsupported : Rc) : PtpM Rc := do
  let fuji ← get
  if fuji.transport ≠ .rawConv then return unsupported
  else
    ptpMutexLock
    let rc ← transactRc (.getObjectInfo 0)
    if rc ≠ .ok then
      ptpMutexUnlock
      return rc
    else
      let rc ← transactRc (.getObject 0)
      if rc ≠ .ok then
        ptpMutexUnlock
        return rc
      else
        let s ← get
        let _ ← ask (.fwrite s.payload)
        ptpMutexUnlock
        return rc

/-- A function that takes the mutex, with its arguments; `fuel` bounds the turns of its loop, and
`data` is what is in the buffer that a frame is read into. -/
inductive LockCall
  | fujiGetEvents
  | fujiGetDeviceInfo (reg : Registry)
  | fujiConfigVersion
  | ptpipFujiConnectHandshake (deviceName : List UInt8)
  | ptpGetPartialExif (handle : Int)
  | fujiDownloadFileEx (fuel : ℕ) (handle : Int) (info : Bool)
  | appPtpDownloadFile (fuel : ℕ) (oi : ObjectInfo) (objectId : Int) (maxChunkSize : UInt32)
      (index : Int)
  | onRequestThumbnail (file : FileHandle)
  | onRequestLiveviewFrame (fuel : ℕ) (data : List UInt8) (handle : FileHandle)
  | fujiProcessRaf (lib : FpLib) (fp userFp : FujiProfile) (inputRafPath outputPath : String)
  | fujiusbDownloadBackup (unsupported : Rc)
  | fujiGetBatteryPercent (value : Int32)
  | ptpReportError (reason : Option String) (code : Rc)

/-- The operations of these functions. -/
inductive LockOp
  | base (op : Op)
  | video (op : VideoOp)
  /-- `pak_rt_add_file_thumbnail` -/
  | addFileThumbnail (file : FileHandle) (data : Option (List UInt8)) (length : UInt32)
  /-- a read of `r->io_kill_switch`, which other threads may have set -/
  | ioKillSwitch
  | setIoKillSwitch
  | setOperationKillSwitch
  /-- `ptp_close_session`, a transaction -/
  | closeSession
  /-- `ptpip_device_close` -/
  | ptpipDeviceClose
  /-- `ptp_device_close` -/
  | ptpDeviceClose
  /-- `app_print` -/
  | print (text : String)
  /-- the functions that are called, each on a module, before the next operation is answered -/
  | calls

@[reducible] def LockOp.Ret : LockOp → Type
  | base op => op.Ret
  | video op => op.Ret
  | ioKillSwitch => Bool
  | closeSession => List UInt8
  | calls => List (LockCall × ModulePriv)
  | _ => Unit

/-- Programs of these functions, over the module. -/
abbrev LockM : Type → Type := StateT ModulePriv (Prog LockOp LockOp.Ret)

/-- Histories with the mutex. -/
abbrev LockHistory : Type := List (Event LockOp LockOp.Ret)

/-- Ask the environment. -/
def askLock (op : LockOp) : LockM op.Ret := call op

/-! ### The code: the functions of the module -/

/-- An operation of the runtime. -/
def askBase : Handler Op Op.Ret Unit ModulePriv LockOp LockOp.Ret
  | op, _ => do
    let r : op.Ret ← askLock (.base op)
    return (r, ())

/-- An operation of the reader of frames. -/
def askVideo : Handler VideoOp VideoOp.Ret Unit ModulePriv LockOp LockOp.Ret
  | op, _ => do
    let r : op.Ret ← askLock (.video op)
    return (r, ())

/-- A program of the module. -/
def onBase {α : Type} (m : ModM α) : LockM α := do
  let mod ← get
  let out : α × ModulePriv ← (m mod).interp askBase ()
  modify fun _ => out.2
  return out.1

/-- The runtime of the module; without one a NULL pointer is dereferenced. -/
def theRuntime : LockM PtpRuntime := do
  let mod ← get
  match mod.r with
  | some r => return r
  | none => hang

/-- `on_request_thumbnail`. -/
def onRequestThumbnail (file : FileHandle) : LockM PakRc := do
  let mod ← get
  if mod.r.isSome = true then
    askLock (.base .mutexLock)
    let thumb ← onBase (withRuntime (fujiGetThumb (file.indexInView + 1)))
    if thumb.1 = .checkCode ∨ thumb.1 = .runtimeErr ∨ thumb.2.2 = 0 then
      askLock (.addFileThumbnail file none 0)
      askLock (.base .mutexUnlock)
      return .ok
    else if thumb.1 ≠ .ok then
      askLock (.base .mutexUnlock)
      onBase (handlePtperr thumb.1 "fuji_get_thumb")
    else
      let r ← theRuntime
      askLock (.addFileThumbnail file (some (r.payload.drop thumb.2.1.toNat)) thumb.2.2)
      askLock (.base .mutexUnlock)
      return .ok
  else return .ok

/-- `on_request_liveview_frame` handing on a frame that has been read. -/
def addFrame (handle : FileHandle) (rc : Int) (size : UInt32) (data : List UInt8) : LockM Unit :=
  if rc = 0 ∧ size ≠ 0 then
    askLock (.base (.addFileContents handle.indexInView (handle.storageName.getD "") (some data)
      size.toNat 0 size))
  else return ()

/-- `on_request_liveview_frame`. -/
def onRequestLiveviewFrame (fuel : ℕ) (data : List UInt8) (handle : FileHandle) : LockM Int := do
  let mod ← get
  if mod.r.isSome = true then
    askLock (.base .mutexLock)
    let frame : (Int × UInt32) × List UInt8 ←
      (ptpFujiReadLiveviewFrame fuel 0 data).interp askVideo ()
    addFrame handle frame.1.1 frame.1.2 frame.2
    askLock (.base .mutexUnlock)
    return frame.1.1
  else return 0

/-! ### The code: `ptp_report_error` -/

/-- `ptp_report_error`: the session is closed if that is intended. -/
def closeIntended (code : Rc) : LockM Unit := do
  if code = .ok then
    let payload : List UInt8 ← askLock .closeSession
    modify fun mod => { mod with r := mod.r.map (·.answered payload) }
  else return ()

/-- `ptp_report_error`: the goodbye to the camera. -/
def sayGoodbye (connectionType : ConnectionType) : LockM Unit :=
  match connectionType with
  | .ipUsb => do
    let _ ← askLock (.base (.cmdWrite [0x8, 0x0, 0x0, 0x0, 0xff, 0xff, 0xff, 0xff]))
    askLock .ptpipDeviceClose
  | .usb => askLock .ptpDeviceClose
  | .ip => return ()

/-- `ptp_report_error`: what is printed. -/
def disconnectText (reason : Option String) (code : Rc) : String :=
  match reason with
  | none => if code = .ioErr then "Disconnected: IO Error" else "Disconnected: Runtime error"
  | some reason => "Disconnected: " ++ reason

/-- `ptp_report_error`. -/
def ptpReportError (reason : Option String) (code : Rc) : LockM Unit := do
  let r ← theRuntime
  let killed : Bool ← askLock .ioKillSwitch
  if killed = true then return ()
  else
    askLock (.base .mutexLock)
    let killed : Bool ← askLock .ioKillSwitch
    if killed = true then askLock (.base .mutexUnlock)
    else
      closeIntended code
      askLock .setOperationKillSwitch
      sayGoodbye r.connectionType
      askLock .setIoKillSwitch
      askLock (.base .mutexUnlock)
      askLock (.print (disconnectText reason code))

/-! ### Calls within calls -/

/-- A program without its result. -/
def noResult {α : Type} (m : LockM α) : LockM Unit := do
  let _ ← m
  return ()

/-- A program on the runtime, without its result. -/
def runtimeCall {α : Type} (m : PtpM α) : LockM Unit := noResult (onBase (withRuntime m))

/-- The program of a function. -/
def LockCall.program : LockCall → LockM Unit
  | fujiGetEvents => runtimeCall fujiGetEventsReturns
  | fujiGetDeviceInfo reg => runtimeCall (Fuji.fujiGetDeviceInfo reg)
  | fujiConfigVersion => runtimeCall Fuji.fujiConfigVersion
  | ptpipFujiConnectHandshake deviceName => runtimeCall (Fuji.ptpipFujiConnectHandshake deviceName)
  | ptpGetPartialExif handle => runtimeCall (ptpGetPartialExifReturns handle)
  | fujiDownloadFileEx fuel handle info => runtimeCall (Fuji.fujiDownloadFileEx fuel handle info)
  | appPtpDownloadFile fuel oi objectId maxChunkSize index =>
    runtimeCall (Fuji.appPtpDownloadFile fuel oi objectId maxChunkSize index)
  | onRequestThumbnail file => noResult (Fuji.onRequestThumbnail file)
  | onRequestLiveviewFrame fuel data handle =>
    noResult (Fuji.onRequestLiveviewFrame fuel data handle)
  | fujiProcessRaf lib fp userFp inputRafPath outputPath =>
    runtimeCall (Fuji.fujiProcessRaf lib fp userFp inputRafPath outputPath)
  | fujiusbDownloadBackup unsupported => runtimeCall (Fuji.fujiusbDownloadBackup unsupported)
  | fujiGetBatteryPercent value => runtimeCall (Fuji.fujiGetBatteryPercent value)
  | ptpReportError reason code => Fuji.ptpReportError reason code

/-- Programs that call the functions. -/
abbrev CallM : Type → Type := StateT Unit (Prog LockOp LockOp.Ret)

/-- Functions are called one after the other. -/
def callAll (f : Handler LockOp LockOp.Ret Unit Unit LockOp LockOp.Ret) :
    List (LockCall × ModulePriv) → CallM Unit
  | [] => pure ()
  | (c, mod) :: calls => do
    let _ ← (c.program mod).interp f ()
    callAll f calls

/-- An operation with the calls before it, nested `n` times at most.  A call may find anything in
the module, and the one around it goes on with what it has. -/
def reenter : ℕ → Handler LockOp LockOp.Ret Unit Unit LockOp LockOp.Ret
  | 0, op, _ => do
    let r : op.Ret ← call op
    return (r, ())
  | n + 1, op, _ => do
    let calls : List (LockCall × ModulePriv) ← call LockOp.calls
    callAll (reenter n) calls
    let r : op.Ret ← call op
    return (r, ())

/-- The outermost call of a function. -/
def LockCall.outermost (c : LockCall) (n : ℕ) (mod : ModulePriv) : CallM (Unit × ModulePriv) :=
  (c.program mod).interp (reenter n) ()

/-! ### The depth -/

/-- What an operation does to a recursive mutex; it fails where it releases one that is not
held. -/
def mutexStep (op : LockOp) (depth : ℕ) : Option ℕ :=
  match op with
  | .base .mutexLock => some (depth + 1)
  | .base .mutexUnlock => if depth = 0 then none else some (depth - 1)
  | _ => some depth

/-- The depth of the mutex behind a history. -/
def depthBehind (depth : ℕ) (h : LockHistory) : Option ℕ :=
  h.foldlM (fun depth e => mutexStep e.1 depth) depth

/-- The mutex is not released below the depth at which the program is entered, whether it comes to
its end or not, and has this depth where it does. -/
structure KeepsDepth {α : Type} (m : CallM α) : Prop where
  not_below : ∀ (depth : ℕ) (h : LockHistory), Reaches m () h →
    ∃ depth', depthBehind depth h = some depth' ∧ depth ≤ depth'
  at_return : ∀ (depth : ℕ) (h : LockHistory) (a : α), Exec m () h a () →
    depthBehind depth h = some depth

end Fuji
