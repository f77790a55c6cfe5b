/-
The module over its life (`module.c`).

The frontend loads the module, calls it in any order, and frees it.  The calls of `module.c` that
are modelled by themselves run here on the one `ModulePriv` that they share, with the calls that
manage it: `init`, the three connections, `on_disconnect`, `on_free`, the metadata of a file, the
commands and the widgets.

A call is looked at through a `Lens`: what the module holds, which operations are fatal errors, and
which leave alone what is held.  A program is `Tidy` if it ends as its code says and leaves alone
what it does not own; every call that does not connect is (`Callback.tidy`).
-/
import LibFuji.Bluetooth
import LibFuji.CameraStore
import LibFuji.Locks
import LibFuji.RuntimeOps
import LibFuji.UsbSetup

namespace Fuji

open Interaction

/-! ### The code -/

/-- `struct ModulePriv`. -/
structure LifePriv extends FilesPriv where
  /-- is there a WiFi adapter? -/
  adapter : Bool
  /-- the members of Bluetooth; their job is `currentJob` -/
  bt : BtPriv

/-- `struct PakFileMetadata`. -/
structure FileMetadata where
  filename : String
  fileSize : Int
  mimeType : String
  imageHeight : Int
  imageWidth : Int
  orientation : Int
  createdDate : String

/-- The operations of the module. -/
inductive LifeOp
  /-- an operation of the runtime -/
  | base (op : Op)
  /-- an operation of the progress bar -/
  | file (op : FileOp)
  /-- an operation of the functions with the mutex -/
  | lock (op : LockOp)
  /-- an operation of Bluetooth, of a function that has a device, or has been given NULL -/
  | bt (dev : Bool) (op : BtOp)
  | setTickInterval (us : ℕ)
  /-- `fuji_ptp_new` -/
  | ptpNew (connectionType : ConnectionType)
  /-- `ptp_device_connect_from_libusb_handle` -/
  | connectFromLibusbHandle
  /-- `free` of the part of the runtime that is libfuji's -/
  | freeKnowledge
  /-- `free` of `struct ModulePriv` -/
  | freePriv
  | unrefDevice
  | unrefAdapter
  | deviceDisconnect
  /-- `pak_rt_add_file_metadata`, of a file by its index in the view and its storage -/
  | addFileMetadata (file : FileHandle) (metadata : Option FileMetadata)
  | nullDereference

@[reducible] def LifeOp.Ret : LifeOp → Type
  | base op => op.Ret
  | file op => op.Ret
  | lock op => op.Ret
  | bt _ op => op.Ret
  | connectFromLibusbHandle => Rc
  | addFileMetadata _ _ => Int
  | _ => Unit

/-- Programs of the module. -/
abbrev LifeM : Type → Type := StateT LifePriv (Prog LifeOp LifeOp.Ret)

/-- Histories of the module. -/
abbrev LifeHistory : Type := List (Event LifeOp LifeOp.Ret)

/-- Ask the environment. -/
def askLife (op : LifeOp) : LifeM op.Ret := call op

/-- What the calls return: a code of the module, or one of what they call. -/
inductive LifeRc
  | pak (rc : PakRc)
  | ptp (rc : Rc)
  | bt (rc : BtRc)
  | int (rc : Int)
  | unimplemented

/-! #### Parts of the module -/

/-- A call that is modelled over the runtime and the device. -/
def onMod {α : Type} (m : ModM α) : LifeM α :=
  embed LifeOp.base (fun _ r => r) (·.toModulePriv)
    (fun mod priv => { priv with toModulePriv := mod }) m

/-- An operation of the progress bar, or one of the runtime. -/
def ofFile : FileOp → LifeOp
  | .base op => .base op
  | op => .file op

def ofFileRet : (op : FileOp) → (ofFile op).Ret → op.Ret
  | .base _, r => r
  | .notified, r => r
  | .setProgressBar _ _, r => r
  | .divideByZero, r => r

/-- A call that is modelled with the progress bar. -/
def onFiles {α : Type} (m : FileM α) : LifeM α :=
  embed ofFile ofFileRet (·.toFilesPriv) (fun files priv => { priv with toFilesPriv := files }) m

/-- An operation of the functions with the mutex, or one of the runtime. -/
def ofLock : LockOp → LifeOp
  | .base op => .base op
  | op => .lock op

def ofLockRet : (op : LockOp) → (ofLock op).Ret → op.Ret
  | .base _, r => r
  | .video _, r => r
  | .addFileThumbnail _ _ _, r => r
  | .ioKillSwitch, r => r
  | .setIoKillSwitch, r => r
  | .setOperationKillSwitch, r => r
  | .closeSession, r => r
  | .ptpipDeviceClose, r => r
  | .ptpDeviceClose, r => r
  | .print _, r => r
  | .calls, r => r

/-- A call that is modelled with the mutex. -/
def onLocks {α : Type} (m : LockM α) : LifeM α :=
  embed ofLock ofLockRet (·.toModulePriv) (fun mod priv => { priv with toModulePriv := mod }) m

/-- A call that is modelled over Bluetooth, and whether the device that it is given is there. -/
def onBluetooth {α : Type} (dev : Bool) (m : BtM α) : LifeM α :=
  embed (LifeOp.bt dev) (fun _ r => r) (fun priv => { priv.bt with currentJob := priv.currentJob })
    (fun bt priv => { priv with bt := bt }) m

/-! #### Connections -/

def widgetSwitchWifi : String := "switch-wifi"

/-- `on_try_connect_usb`. -/
def connectUsb (job : Int) : LifeM LifeRc := do
  askLife (.ptpNew .usb)
  let connected : Rc ← askLife .connectFromLibusbHandle
  let rc ← onMod (onTryConnectUsb connected job)
  return .ptp rc

/-- `on_try_connect_wifi`; `handle` says whether there is an adapter. -/
def connectWifi (fuel : ℕ) (handle : Bool) (job : Int) : LifeM LifeRc := do
  modify fun priv => { priv with adapter := handle }
  askLife (.ptpNew .ipUsb)
  let rc ← onMod (onTryConnectWifi fuel job)
  return .pak rc

/-- `on_try_connect_bluetooth`. -/
def onTryConnectBluetooth (saved : Option (Vector UInt8 4)) (job : Int) : LifeM LifeRc := do
  askLife (.base (.setWidget widgetSwitchWifi (.button "Connect over WiFi")))
  modify fun priv => { priv with currentJob := job }
  let rc ← onBluetooth true (fujiConnectBluetooth saved)
  if rc ≠ .ok then return .bt rc
  else
    modify fun priv => { priv with dev := true }
    return .bt .ok

/-- `on_disconnect`. -/
def onDisconnect : LifeM LifeRc := do
  let priv ← get
  let _ ← if priv.r.isSome = true then
      onLocks (ptpReportError (some "requested disconnect") .ok)
    else pure ()
  let _ ← if priv.dev = true then askLife .deviceDisconnect else pure ()
  return .pak .ok

/-! #### Metadata -/

def ofJpeg : ℕ := 0x3801
def ofMov : ℕ := 0x300d
def ofPng : ℕ := 0x380b

/-- `get_mime_type`. -/
def getMimeType (objectFormat : UInt16) : String :=
  if objectFormat.toNat = ofJpeg then "image/jpeg"
  else if objectFormat.toNat = ofMov then "video/quicktime"
  else if objectFormat.toNat = ofPng then "image/png"
  else "application/unknown"

/-- `oi_to_metadata`. -/
def oiToMetadata (oi : ObjectInfo) : FileMetadata where
  filename := oi.filename
  fileSize := toCInt oi.compressedSize.toNat
  mimeType := getMimeType oi.objFormat
  imageHeight := toCInt oi.imgHeight.toNat
  imageWidth := toCInt oi.imgWidth.toNat
  orientation := if oi.keywords = "Orientation: 8" then 270 else 0
  createdDate := oi.dateCreated

/-- `plat_update_object_info`. -/
def platUpdateObjectInfo (handle : Int) (oi : ObjectInfo) : LifeM Int := do
  let fuji ← onMod (withRuntime get)
  askLife (.addFileMetadata ⟨some fuji.storageDeviceName, handle - 1⟩ (some (oiToMetadata oi)))

/-- `on_request_file_metadata`. -/
def onRequestFileMetadata (file : FileHandle) : LifeM LifeRc := do
  let priv ← get
  if priv.r.isSome = true then
    let r ← onMod (withRuntime (transact (.getObjectInfo (file.indexInView + 1))))
    if r.rc = .checkCode ∨ r.rc = .runtimeErr then
      let _ ← askLife (.addFileMetadata file none)
      return .pak .ok
    else if r.rc ≠ .ok then
      let rc ← onMod (handlePtperr r.rc "fuji_get_thumb")
      return .pak rc
    else
      let rc ← platUpdateObjectInfo (file.indexInView + 1) r.out
      return .int rc
  else return .pak .ok

/-! #### Commands and widgets -/

/-- The commands of the frontend that are told apart. -/
inductive Command
  | shutterDown | focusDown | focusUp | shutterUp | other
  deriving DecidableEq, Repr

def shutterRelease : Vector UInt8 2 := #v[0, 0]
def shutterCmd : Vector UInt8 2 := #v[1, 0]
def shutterPress : Vector UInt8 2 := #v[2, 0]
def shutterFocus : Vector UInt8 2 := #v[3, 0]

/-- `fuji_bt_handle_command`. -/
def fujiBtHandleCommand (dev : Bool) (argv : List Command) : LifeM LifeRc := do
  match argv with
  | [] =>
    askLife .nullDereference
    return .unimplemented
  | command :: _ =>
    let send (params : Vector UInt8 2) : LifeM LifeRc := do
      let rc ← onBluetooth dev (sendShutterCommand shutterCmd params)
      return .bt rc
    if command = .shutterDown then send shutterPress
    else if command = .focusDown then send shutterFocus
    else if command = .focusUp ∨ command = .shutterUp then send shutterRelease
    else return .unimplemented

/-- `on_command`. -/
def onCommand (argv : List Command) : LifeM LifeRc := do
  let priv ← get
  if priv.dev = true then fujiBtHandleCommand priv.dev argv else return .unimplemented

/-- `on_prop_changed` for an option of the runtime. -/
def setOption (f : PtpRuntime → PtpRuntime) : LifeM LifeRc := do
  let priv ← get
  match priv.r with
  | some r =>
    modify fun priv => { priv with r := some (f r) }
    return .pak .ok
  | none =>
    askLife .nullDereference
    return .pak .ok

/-- `on_prop_changed`, for a widget with a value. -/
def onPropChanged (name : String) (v : Bool) : LifeM LifeRc := do
  if name = widgetSwitchWifi then
    let priv ← get
    let rc ← onBluetooth priv.dev fujiBluetoothConnectToWifi
    return .bt rc
  else if name = widgetAutosaveThumbs then
    setOption fun fuji => { fuji with allowAutosaveThumbnails := v }
  else if name = widgetResizeImages then
    setOption fun fuji => { fuji with compressImagesForSmartphone := v }
  else return .pak .ok

/-! #### The life of the module -/

/-- `calloc` of `struct ModulePriv`. -/
def callocPriv : LifePriv where
  toFilesPriv := filesInit
  adapter := false
  bt := btInit

/-- `init`, behind the `calloc`. -/
def init : LifeM Unit := do
  askLife (.setTickInterval 1000000)
  askLife (.base (.setScreenSupported .dashboard))

/-- `on_free`. -/
def onFree : LifeM Unit := do
  let priv ← get
  let _ ← if priv.r.isSome = true then do
      askLife .freeKnowledge
      askLife (.base .ptpClose)
    else pure ()
  let _ ← if priv.dev = true then askLife .unrefDevice else pure ()
  let _ ← if priv.adapter = true then askLife .unrefAdapter else pure ()
  askLife .freePriv

/-- The calls of `get_module` besides `init` and `free`, with their arguments; `fuel` bounds the
turns of a loop, and `data` is what is in the buffer that a frame is read into. -/
inductive Callback
  | tryConnectUsb (job : Int)
  | tryConnectWifi (fuel : ℕ) (handle : Bool) (job : Int)
  | tryConnectBluetooth (saved : Option (Vector UInt8 4)) (job : Int)
  | requestThumbnail (file : FileHandle)
  | requestMetadata (file : FileHandle)
  | requestContents (fuel : ℕ) (job : Int) (file : FileHandle)
  | requestLiveviewFrame (fuel : ℕ) (data : List UInt8) (handle : FileHandle)
  | idleTick
  | disconnect
  | switchScreen (oldScreen newScreen : Screen)
  | customCommand (argv : List Command)
  | widgetUpdated (name : String) (v : Bool)

/-- The program of a call. -/
def Callback.program : Callback → LifeM LifeRc
  | tryConnectUsb job => connectUsb job
  | tryConnectWifi fuel handle job => connectWifi fuel handle job
  | tryConnectBluetooth saved job => onTryConnectBluetooth saved job
  | requestThumbnail file => LifeRc.pak <$> onLocks (onRequestThumbnail file)
  | requestMetadata file => onRequestFileMetadata file
  | requestContents fuel job file => LifeRc.pak <$> onFiles (onRequestFileContents fuel job file)
  | requestLiveviewFrame fuel data handle =>
    LifeRc.int <$> onLocks (onRequestLiveviewFrame fuel data handle)
  | idleTick => LifeRc.pak <$> onMod onIdleTick
  | disconnect => onDisconnect
  | switchScreen oldScreen newScreen => LifeRc.ptp <$> onMod (onSwitchScreen oldScreen newScreen)
  | customCommand argv => onCommand argv
  | widgetUpdated name v => onPropChanged name v

/-! ### What is seen of the parts -/

def seenBase : Event LifeOp LifeOp.Ret → Option (Event Op Op.Ret)
  | ⟨.base op, r⟩ => some ⟨op, r⟩
  | _ => none

def seenFiles : Event LifeOp LifeOp.Ret → Option (Event FileOp FileOp.Ret)
  | ⟨.base op, r⟩ => some ⟨.base op, r⟩
  | ⟨.file op, r⟩ => some ⟨op, r⟩
  | _ => none

def seenLocks : Event LifeOp LifeOp.Ret → Option (Event LockOp LockOp.Ret)
  | ⟨.base op, r⟩ => some ⟨.base op, r⟩
  | ⟨.lock op, r⟩ => some ⟨op, r⟩
  | _ => none

def seenBluetooth : Event LifeOp LifeOp.Ret → Option (Event BtOp BtOp.Ret)
  | ⟨.bt _ op, r⟩ => some ⟨op, r⟩
  | _ => none

theorem seenFiles_ofFile (op : FileOp) (r : (ofFile op).Ret) :
    seenFiles ⟨ofFile op, r⟩ = some ⟨op, ofFileRet op r⟩ := by
  cases op <;> rfl

theorem seenLocks_ofLock (op : LockOp) (r : (ofLock op).Ret) :
    seenLocks ⟨ofLock op, r⟩ = some ⟨op, ofLockRet op r⟩ := by
  cases op <;> rfl

theorem nonempty_ret (op : Op) : Nonempty op.Ret := ⟨accessPoint op⟩

theorem nonempty_fileRet (op : FileOp) : Nonempty op.Ret := ⟨reading 0 op⟩

theorem nonempty_btRet (op : BtOp) : Nonempty op.Ret := ⟨answering [] op⟩

/-- A camera that has no frames. -/
def framing : (op : LockOp) → op.Ret
  | .base op => accessPoint op
  | .video .readHeader => ReadResult.failed
  | .video (.bufferResize size) => ⟨.replicate size.toNat 0, by simp⟩
  | .video (.videoRead _ _) => ReadResult.failed
  | .ioKillSwitch => false
  | .closeSession => ([] : List UInt8)
  | .calls => ([] : List (LockCall × ModulePriv))
  | .addFileThumbnail _ _ _ | .setIoKillSwitch | .setOperationKillSwitch | .ptpipDeviceClose
  | .ptpDeviceClose | .print _ => ()

theorem nonempty_lockRet (op : LockOp) : Nonempty op.Ret := ⟨framing op⟩

/-! ### How a call ends -/

/-- `pak_rt_fatal_error`. -/
def Op.isFatal : Op → Bool
  | .fatalError _ => true
  | _ => false

def FileOp.isFatal : FileOp → Bool
  | .base op => op.isFatal
  | _ => false

def LockOp.isFatal : LockOp → Bool
  | .base op => op.isFatal
  | _ => false

def LifeOp.isFatal : LifeOp → Bool
  | .base op => op.isFatal
  | _ => false

/-- Operations that leave the runtime open, and the widgets of the frontend as they are. -/
def Op.Steady : Op → Prop
  | .ptpClose => False
  | .setWidget _ _ => False
  | _ => True

def FileOp.Steady : FileOp → Prop
  | .base op => op.Steady
  | _ => True

def LockOp.Steady : LockOp → Prop
  | .base op => op.Steady
  | _ => True

/-- Operations that neither make a runtime nor give anything back, nor work on NULL. -/
def LifeOp.Steady : LifeOp → Prop
  | .base op => op.Steady
  | .bt dev _ => dev = true
  | .ptpNew _ => False
  | .freeKnowledge => False
  | .freePriv => False
  | .unrefDevice => False
  | .unrefAdapter => False
  | .nullDereference => False
  | _ => True

/-- What the module holds. -/
structure Holdings where
  runtime : Bool
  device : Bool
  adapter : Bool

/-- How one looks at a part of the module: what it holds, which operations are fatal errors, and
which leave alone what is held. -/
structure Lens (Op σ : Type) where
  held : σ → Holdings
  fatal : Op → Bool
  steady : Op → Prop

/-- Only the device and the fatal errors are looked at. -/
def Lens.loose {Op σ : Type} (L : Lens Op σ) : Lens Op σ where
  held s := ⟨false, (L.held s).device, false⟩
  fatal := L.fatal
  steady _ := True

def ModulePriv.held (mod : ModulePriv) : Holdings := ⟨mod.r.isSome, mod.dev, false⟩

def LifePriv.held (priv : LifePriv) : Holdings := ⟨priv.r.isSome, priv.dev, priv.adapter⟩

def modLens : Lens Op ModulePriv := ⟨ModulePriv.held, Op.isFatal, Op.Steady⟩

def fileLens : Lens FileOp FilesPriv := ⟨fun priv => priv.toModulePriv.held, FileOp.isFatal, FileOp.Steady⟩

def lockLens : Lens LockOp ModulePriv := ⟨ModulePriv.held, LockOp.isFatal, LockOp.Steady⟩

def lifeLens : Lens LifeOp LifePriv := ⟨LifePriv.held, LifeOp.isFatal, LifeOp.Steady⟩

section Tidy

variable {Op : Type} {Ret : Op → Type} {σ α β : Type}

/-- How a program ends that has returned a code, or something else: the runtime and the adapter are
still there; the Bluetooth device is dropped just with `PAK_ERR_IO`; and there has been one fatal
error, if that has been returned without a device, or `PAK_ERR_DISCONNECTED`. -/
structure Ends (L : Lens Op σ) (pak : Option PakRc) (s : σ) (h : List (Event Op Ret)) (s' : σ) :
    Prop where
  runtime : (L.held s').runtime = (L.held s).runtime
  device : (L.held s').device = ((L.held s).device && decide (pak ≠ some .io))
  adapter : (L.held s').adapter = (L.held s).adapter
  fatal : h.countP (fun e => L.fatal e.1) =
    if pak = some .io ∧ (L.held s).device = false ∨ pak = some .disconnected then 1 else 0

/-- Every run ends so, for the code that is made of its result, and none makes anything or gives it
back, whether it finishes or not. -/
structure Tidy (L : Lens Op σ) (m : StateT σ (Prog Op Ret) α) (code : α → Option PakRc) : Prop where
  ends : ∀ s h a s', Exec m s h a s' → Ends L (code a) s h s'
  issues : Issues L.steady m

/-- A program without a code. -/
abbrev Plain (L : Lens Op σ) (m : StateT σ (Prog Op Ret) α) : Prop := Tidy L m (fun _ => none)

variable {L : Lens Op σ} {code : α → Option PakRc} {m : StateT σ (Prog Op Ret) α}
  {s s' s'' : σ} {h h' : List (Event Op Ret)} {pak : Option PakRc}

theorem ends_nil (hheld : L.held s' = L.held s) (hio : pak ≠ some .io)
    (hdisconnected : pak ≠ some .disconnected) : Ends L pak s ([] : List (Event Op Ret)) s' :=
  ⟨by rw [hheld], by simp [hheld, hio], by rw [hheld], by simp [hio, hdisconnected]⟩

theorem Ends.append (hs : Ends L none s h s') (hs' : Ends L pak s' h' s'') :
    Ends L pak s (h ++ h') s'' := by
  have hdevice : (L.held s').device = (L.held s).device := by rw [hs.device]; simp
  refine ⟨hs'.runtime.trans hs.runtime, ?_, hs'.adapter.trans hs.adapter, ?_⟩
  · rw [hs'.device, hdevice]
  · rw [List.countP_append, hs.fatal, hs'.fatal, hdevice]
    simp

theorem tidy_bind {code : β → Option PakRc} {f : α → StateT σ (Prog Op Ret) β} (hm : Plain L m)
    (hf : ∀ a, Tidy L (f a) code) : Tidy L (m >>= f) code := by
  refine ⟨fun s h b s' hrun => ?_, issues_bind hm.issues fun a => (hf a).issues⟩
  obtain ⟨h₁, a, s₁, h₂, rfl, hrun₁, hrun₂⟩ := exec_of_bind hrun
  exact (hm.ends _ _ _ _ hrun₁).append ((hf a).ends _ _ _ _ hrun₂)

theorem tidy_get_bind {code : β → Option PakRc} {f : σ → StateT σ (Prog Op Ret) β}
    (hf : ∀ s, Tidy L (f s) code) : Tidy L (get >>= f) code :=
  ⟨fun s h b s' hrun => (hf s).ends s h b s' (exec_get_bind.mp hrun),
    issues_bind issues_get fun s => (hf s).issues⟩

theorem tidy_pure {a : α} (hio : code a ≠ some .io) (hdisconnected : code a ≠ some .disconnected) :
    Tidy L (pure a : StateT σ (Prog Op Ret) α) code := by
  refine ⟨?_, issues_pure a⟩
  rintro s _ _ _ ⟨⟩
  exact ends_nil rfl hio hdisconnected

theorem plain_pure (a : α) : Plain L (pure a : StateT σ (Prog Op Ret) α) :=
  tidy_pure (by simp) (by simp)

theorem tidy_ite {c : Prop} [Decidable c] {m' : StateT σ (Prog Op Ret) α} (hm : Tidy L m code)
    (hm' : Tidy L m' code) : Tidy L (if c then m else m') code := by
  by_cases hc : c
  · rwa [if_pos hc]
  · rwa [if_neg hc]

/-- The result of a program is wrapped. -/
theorem tidy_map {code : β → Option PakRc} {g : α → β} (hm : Tidy L m (code ∘ g)) :
    Tidy L (g <$> m) code := by
  have hmap : g <$> m = m >>= pure ∘ g := rfl
  rw [hmap]
  refine ⟨fun s h b s' hrun => ?_, issues_bind hm.issues fun a => issues_pure (g a)⟩
  obtain ⟨h₁, a, s₁, h₂, rfl, hrun₁, hrun₂⟩ := exec_of_bind hrun
  obtain ⟨rfl, rfl, rfl⟩ := hrun₂.eq_of_ret rfl
  rw [List.append_nil]
  exact hm.ends _ _ _ _ hrun₁

theorem plain_hang : Plain L (hang : StateT σ (Prog Op Ret) α) :=
  ⟨fun _ _ _ _ hrun => (by cases hrun), issues_hang⟩

theorem plain_call {op : Op} (hfatal : L.fatal op = false) (hsteady : L.steady op) :
    Plain L (call op : StateT σ (Prog Op Ret) (Ret op)) := by
  refine ⟨?_, issues_call hsteady⟩
  rintro s _ _ _ (_ | ⟨r, ⟨⟩⟩)
  exact ⟨rfl, by simp, rfl, by simp [hfatal]⟩

theorem plain_modify {f : σ → σ} (hf : ∀ s, L.held (f s) = L.held s) :
    Plain L (modify f : StateT σ (Prog Op Ret) PUnit) := by
  refine ⟨?_, issues_modify f⟩
  rintro s _ _ _ ⟨⟩
  exact ends_nil (hf s) (by simp) (by simp)

/-- What a handler does for each operation, it does in every run. -/
theorem plain_interp {Op' : Type} {Ret' : Op' → Type} {τ : Type} {f : Handler Op' Ret' τ σ Op Ret}
    (hf : ∀ op t, Plain L (f op t)) {p : Prog Op' Ret' α} {t : τ} : Plain L (p.interp f t) := by
  induction p generalizing t with
  | ret a => exact plain_pure a
  | call op k ih => exact tidy_bind (hf op t) fun r => ih r.1
  | hang => exact plain_hang

theorem Tidy.loosen (hm : Tidy L m code) : Tidy L.loose m code :=
  ⟨fun s h a s' hrun => ⟨rfl, (hm.ends s h a s' hrun).device, rfl, (hm.ends s h a s' hrun).fatal⟩,
    hm.issues.mono fun _ _ => trivial⟩

theorem Tidy.mono {steady : Op → Prop} (hm : Tidy L m code) (hsteady : ∀ op, L.steady op → steady op) :
    Tidy { L with steady := steady } m code :=
  ⟨fun s h a s' hrun =>
    ⟨(hm.ends s h a s' hrun).runtime, (hm.ends s h a s' hrun).device,
      (hm.ends s h a s' hrun).adapter, (hm.ends s h a s' hrun).fatal⟩, hm.issues.mono hsteady⟩

section Embed

variable {Op' : Type} {Ret' : Op' → Type} {ρ : Type} {ι : Op' → Op} {κ : (op : Op') → Ret (ι op) → Ret' op}
  {proj : σ → ρ} {put : ρ → σ → σ} {v : Event Op Ret → Option (Event Op' Ret')} {L' : Lens Op' ρ}
  {n : StateT ρ (Prog Op' Ret') α}

/-- **A call ends as the part of the module does** that it runs on, which the adapter is not of. -/
theorem tidy_embed (hv : ∀ op r, v ⟨ι op, r⟩ = some ⟨op, κ op r⟩) (hret : ∀ op, Nonempty (Ret' op))
    (hfatal : ∀ op, L.fatal (ι op) = L'.fatal op) (hsteady : ∀ op, L'.steady op → L.steady (ι op))
    (hproj : ∀ s, L.held s = { L'.held (proj s) with adapter := (L.held s).adapter })
    (hput : ∀ r s, L.held (put r s) = { L'.held r with adapter := (L.held s).adapter })
    (hn : Tidy L' n code) : Tidy L (embed ι κ proj put n) code := by
  refine ⟨fun s h a s' hrun => ?_, embed_issues hn.issues hret hsteady⟩
  obtain ⟨r', hrun', rfl⟩ := exec_embed hv hrun
  have hends := hn.ends _ _ _ _ hrun'
  refine ⟨?_, ?_, ?_, ?_⟩
  · rw [hput, hproj s]
    exact hends.runtime
  · rw [hput, hproj s]
    exact hends.device
  · rw [hput]
  · rw [countP_embed hv hfatal (embed_all hret _ _ hrun.reaches), hends.fatal, hproj s]

end Embed

end Tidy

theorem Op.OfRuntime.isFatal_eq {op : Op} (hop : op.OfRuntime) : op.isFatal = false := by
  cases op <;> first | rfl | exact hop.elim

theorem Op.OfRuntime.steady {op : Op} (hop : op.OfRuntime) : op.Steady := by
  cases op <;> trivial

/-! ### On the runtime and the device -/

section Parts

variable {α : Type}

/-- What runs on the runtime alone. -/
theorem withRuntime_plain {m : PtpM α} (hm : Issues Op.OfRuntime m) :
    Plain modLens (withRuntime m) := by
  refine ⟨fun mod h a mod' hrun => ?_, (withRuntime_issues hm).mono fun _ hop => hop.steady⟩
  obtain ⟨r, r', hr, hrun', rfl⟩ := exec_withRuntime.mp hrun
  refine ⟨by simp [modLens, ModulePriv.held, hr], by simp [modLens, ModulePriv.held], rfl, ?_⟩
  rw [List.countP_eq_zero.mpr fun e he => ?_]
  · simp
  · change ¬ e.1.isFatal = true
    rw [(hm _ _ hrun'.reaches e he).isFatal_eq]
    exact Bool.false_ne_true

theorem handlePtperr_tidy (rc : Rc) (action : String) :
    Tidy modLens (handlePtperr rc action) some := by
  refine ⟨fun mod h pak mod' hrun => ?_, issues_handlePtperr rc trivial⟩
  by_cases hio : rc = .ioErr
  · rw [handlePtperr, if_pos hio] at hrun
    have hrun₀ := exec_get_bind.mp hrun
    by_cases hdev : mod.dev = false
    · rw [if_pos hdev] at hrun₀
      obtain ⟨_, h₁, rfl, hrun₁⟩ := exec_call_bind.mp hrun₀
      cases hrun₁
      exact ⟨rfl, by simp [modLens, ModulePriv.held], rfl,
        by simp [modLens, ModulePriv.held, hdev, Op.isFatal]⟩
    · rw [if_neg hdev] at hrun₀
      cases hrun₀
      exact ⟨rfl, by simp [modLens, ModulePriv.held], rfl, by simp [modLens, ModulePriv.held, hdev]⟩
  · rw [handlePtperr, if_neg hio] at hrun
    have hpure {pak : PakRc} (hne : pak ≠ .io) (hne' : pak ≠ .disconnected) :
        Tidy modLens (pure pak : ModM PakRc) some :=
      tidy_pure (by simp [hne]) (by simp [hne'])
    exact (tidy_ite (hpure (by simp) (by simp)) (tidy_ite (hpure (by simp) (by simp))
      (hpure (by simp) (by simp)))).ends mod h pak mod' hrun

theorem updateDevice_tidy : Tidy modLens updateDevice some := by
  refine ⟨fun mod h pak mod' hrun => ?_, ?_⟩
  · have hrun₀ := exec_get_bind.mp hrun
    by_cases hdev : mod.dev = true
    · rw [if_pos hdev] at hrun₀
      obtain ⟨connected, h₁, rfl, hrun₁⟩ := exec_call_bind.mp hrun₀
      by_cases hconnected : connected = false
      · rw [if_pos hconnected] at hrun₁
        obtain ⟨_, h₂, rfl, hrun₂⟩ := exec_call_bind.mp hrun₁
        cases hrun₂
        exact ⟨rfl, by simp [modLens, ModulePriv.held], rfl, by simp [modLens, Op.isFatal]⟩
      · rw [if_neg hconnected] at hrun₁
        cases hrun₁
        exact ⟨rfl, by simp [modLens, ModulePriv.held], rfl, by simp [modLens, Op.isFatal]⟩
    · rw [if_neg hdev] at hrun₀
      cases hrun₀
      exact ends_nil rfl (by simp) (by simp)
  · refine issues_bind issues_get fun mod => issues_ite ?_ (issues_pure _)
    refine issues_bind (issues_call trivial) fun connected => issues_ite ?_ (issues_pure _)
    exact issues_bind (issues_call trivial) fun _ => issues_pure _

theorem onIdleTick_tidy : Tidy modLens onIdleTick some := by
  refine tidy_get_bind fun mod => ?_
  cases mod.r with
  | none => exact updateDevice_tidy
  | some r =>
    refine tidy_ite (tidy_bind (plain_call rfl trivial) fun rc => ?_)
      (tidy_bind (withRuntime_plain fujiGetEvents_ofRuntime) fun rc => ?_)
    all_goals exact tidy_ite (handlePtperr_tidy _ _) updateDevice_tidy

theorem onSwitchScreen_plain (oldScreen newScreen : Screen) :
    Plain modLens (onSwitchScreen oldScreen newScreen) := by
  refine tidy_get_bind fun mod => tidy_ite ?_ (plain_pure _)
  refine tidy_ite (plain_pure _) (tidy_ite ?_ (tidy_ite ?_ (plain_pure _)))
  · refine tidy_bind (withRuntime_plain fujiConfigLiveview_ofRuntime) fun rc => ?_
    exact tidy_ite (plain_pure _) (plain_pure _)
  · refine tidy_bind (withRuntime_plain fujiEndLiveview_ofRuntime) fun rc => ?_
    exact tidy_bind (withRuntime_plain fujiConfigImageGallery_ofRuntime) fun _ => plain_pure _

end Parts

/-! ### With the mutex -/

section Locks

variable {α : Type}

/-- What is seen of an operation with the mutex. -/
def seenOp : Event LockOp LockOp.Ret → Option (Event Op Op.Ret)
  | ⟨.base op, r⟩ => some ⟨op, r⟩
  | _ => none

theorem onBase_tidy {code : α → Option PakRc} {m : ModM α} (hm : Tidy modLens m code) :
    Tidy lockLens (onBase m) code := by
  have hembed : onBase m = embed LockOp.base (fun _ r => r) id (fun mod _ => mod) m := rfl
  rw [hembed]
  exact tidy_embed (v := seenOp) (fun _ _ => rfl) nonempty_ret (fun _ => rfl) (fun _ hop => hop)
    (fun _ => rfl) (fun _ _ => rfl) hm

theorem theRuntime_plain : Plain lockLens theRuntime := by
  refine tidy_get_bind fun mod => ?_
  cases mod.r with
  | none => exact plain_hang
  | some r => exact plain_pure r

theorem onRequestThumbnail_tidy (file : FileHandle) :
    Tidy lockLens (onRequestThumbnail file) some := by
  have hok : Tidy lockLens (pure .ok : LockM PakRc) some := tidy_pure (by simp) (by simp)
  have hthumb := onBase_tidy (withRuntime_plain (fujiGetThumb_ofRuntime (file.indexInView + 1)))
  refine tidy_get_bind fun mod => tidy_ite ?_ hok
  refine tidy_bind (plain_call rfl trivial) fun _ => tidy_bind hthumb fun thumb => ?_
  refine tidy_ite ?_ (tidy_ite ?_ (tidy_bind theRuntime_plain fun r => ?_))
  · refine tidy_bind (plain_call rfl trivial) fun _ => ?_
    exact tidy_bind (plain_call rfl trivial) fun _ => hok
  · exact tidy_bind (plain_call rfl trivial) fun _ => onBase_tidy (handlePtperr_tidy _ _)
  · refine tidy_bind (plain_call rfl trivial) fun _ => ?_
    exact tidy_bind (plain_call rfl trivial) fun _ => hok

theorem onRequestLiveviewFrame_plain (fuel : ℕ) (data : List UInt8) (handle : FileHandle) :
    Plain lockLens (onRequestLiveviewFrame fuel data handle) := by
  have hvideo (op : VideoOp) (t : Unit) : Plain lockLens (askVideo op t) :=
    tidy_bind (plain_call rfl trivial) fun _ => plain_pure _
  refine tidy_get_bind fun mod => tidy_ite ?_ (plain_pure _)
  refine tidy_bind (plain_call rfl trivial) fun _ => tidy_bind (plain_interp hvideo) fun frame => ?_
  refine tidy_bind (tidy_ite (plain_call rfl trivial) (plain_pure _)) fun _ => ?_
  exact tidy_bind (plain_call rfl trivial) fun _ => plain_pure _

theorem ptpReportError_plain (reason : Option String) (code : Rc) :
    Plain lockLens (ptpReportError reason code) := by
  have hclose : Plain lockLens (closeIntended code) := by
    refine tidy_ite (tidy_bind (plain_call rfl trivial) fun payload => ?_) (plain_pure _)
    exact plain_modify fun mod => by simp [lockLens, ModulePriv.held]
  have hgoodbye (connectionType : ConnectionType) : Plain lockLens (sayGoodbye connectionType) := by
    cases connectionType with
    | ipUsb => exact tidy_bind (plain_call rfl trivial) fun _ => plain_call rfl trivial
    | usb => exact plain_call rfl trivial
    | ip => exact plain_pure _
  refine tidy_bind theRuntime_plain fun r => tidy_bind (plain_call rfl trivial) fun killed => ?_
  refine tidy_ite (plain_pure _) (tidy_bind (plain_call rfl trivial) fun _ => ?_)
  refine tidy_bind (plain_call rfl trivial) fun killed => ?_
  refine tidy_ite (plain_call rfl trivial) (tidy_bind hclose fun _ => ?_)
  refine tidy_bind (plain_call rfl trivial) fun _ => tidy_bind (hgoodbye _) fun _ => ?_
  refine tidy_bind (plain_call rfl trivial) fun _ => ?_
  exact tidy_bind (plain_call rfl trivial) fun _ => plain_call rfl trivial

end Locks

/-! ### With the progress bar -/

section Files

variable {α : Type} {job : Int} {file : FileHandle}

theorem notify_plain : Plain fileLens notify := by
  have hreport (size : UInt32) : Plain fileLens (ptpReportReadProgress size) := by
    refine tidy_get_bind fun priv => tidy_ite ?_ (plain_pure _)
    refine tidy_bind (plain_modify fun _ => rfl) fun _ => ?_
    exact tidy_ite (plain_call rfl trivial) (plain_call rfl trivial)
  have hreports (sizes : List UInt32) : Plain fileLens (reportReads sizes) := by
    induction sizes with
    | nil => exact plain_pure _
    | cons size sizes ih => exact tidy_bind (hreport size) fun _ => ih
  exact tidy_bind (plain_call rfl trivial) hreports

theorem answer_steady {op : Op} (hop : op.Steady) :
    Issues FileOp.Steady (answer job file op ()) := by
  have hother (op : Op) (hop : op.Steady) : Issues FileOp.Steady (do
      notify
      let r : op.Ret ← askFile (.base op)
      return (r, ()) : FileM (op.Ret × Unit)) :=
    issues_bind notify_plain.issues fun _ => issues_bind (issues_call hop) fun _ => issues_pure _
  cases op with
  | downloadInfo oi =>
    refine issues_bind notify_plain.issues fun _ => issues_bind (issues_call trivial) fun _ => ?_
    refine issues_bind ?_ fun _ => issues_pure _
    exact issues_bind (issues_modify _) fun _ => issues_call trivial
  | handleAdd buf len offset total =>
    refine issues_bind notify_plain.issues fun _ => issues_bind ?_ fun _ => issues_pure _
    refine issues_bind (issues_modify _) fun _ => ?_
    exact issues_bind (issues_call trivial) fun _ => issues_pure _
  | _ => exact hother _ hop

/-- **A part of a request** ends as what runs on the module does, where the view shows its fatal
errors. -/
theorem onModule_tidy {code : α → Option PakRc} {m : ModM α} {A : Op → Prop}
    {v : Event FileOp FileOp.Ret → Option (Event Op Op.Ret)} (hv : Mirrors v A (answer job file))
    (hshown : ∀ e, e.1.isFatal = ((v e).map fun e => e.1.isFatal).getD false) (hA : Issues A m)
    (hm : Tidy modLens m code) : Tidy fileLens (onModule job file m) code := by
  refine ⟨fun priv h a priv' hrun => ?_, onModule_issues hm.issues fun op hop => answer_steady hop⟩
  obtain ⟨h₁, ⟨b, mod⟩, priv₁, h₂, rfl, hinterp, hret⟩ := exec_of_bind (exec_get_bind.mp hrun)
  obtain ⟨rfl, rfl, rfl⟩ := (exec_modify_bind.mp hret).eq_of_ret rfl
  rw [List.append_nil]
  have hends := hm.ends _ _ _ _ (hv.runs (hA priv.toModulePriv) hinterp)
  refine ⟨hends.runtime, hends.device, rfl, ?_⟩
  have hfatal := hends.fatal
  rw [List.countP_filterMap] at hfatal
  refine (List.countP_congr fun e _ => ?_).trans hfatal
  exact iff_of_eq (congrArg (· = true) (hshown e))

theorem seenGallery_isFatal (e : Event FileOp FileOp.Ret) :
    e.1.isFatal = ((seenGallery e).map fun e => e.1.isFatal).getD false := by
  obtain ⟨op, r⟩ := e
  cases op with
  | base op =>
    cases op with
    | addFileContents index name data size offset total => cases data <;> rfl
    | _ => rfl
  | _ => rfl

theorem seenLive_isFatal (e : Event FileOp FileOp.Ret) :
    e.1.isFatal = ((seenLive e).map fun e => e.1.isFatal).getD false := by
  obtain ⟨op, r⟩ := e
  cases op <;> rfl

theorem endRequest_tidy (rc : Rc) : Tidy fileLens (endRequest job file rc) some := by
  refine tidy_bind notify_plain fun _ => tidy_bind (plain_call rfl trivial) fun _ => ?_
  refine tidy_bind (plain_modify fun _ => rfl) fun _ => tidy_ite ?_ ?_
  · exact onModule_tidy answer_mirrors_gallery seenGallery_isFatal
      (issues_handlePtperr (A := Op.OfGallery) rc trivial) (handlePtperr_tidy _ _)
  · exact tidy_pure (by simp) (by simp)

theorem onRequestFileContents_tidy (fuel : ℕ) :
    Tidy fileLens (onRequestFileContents fuel job file) some := by
  refine tidy_get_bind fun priv => ?_
  cases priv.r with
  | none => exact tidy_pure (by simp) (by simp)
  | some r =>
    by_cases hlive : file.storageName = some liveStorageDeviceName
    · simp only [if_pos hlive]
      refine tidy_bind (tidy_bind (plain_modify fun _ => rfl) fun _ => ?_) endRequest_tidy
      refine tidy_bind (plain_call rfl trivial) fun _ => ?_
      exact onModule_tidy answer_mirrors_live seenLive_isFatal
        (withRuntime_issues (appPtpDownloadFile_ofLive hlive _ 1 _))
        (withRuntime_plain (appPtpDownloadFile_ofRuntime _ 1 _ _))
    · simp only [if_neg hlive]
      refine tidy_bind (tidy_bind (plain_call rfl trivial) fun _ => ?_) endRequest_tidy
      exact onModule_tidy answer_mirrors_gallery seenGallery_isFatal
        (withRuntime_issues (fujiDownloadFileEx_ofGallery _))
        (withRuntime_plain (fujiDownloadFileEx_ofRuntime _ true))

end Files

/-! ### Calls that do not connect -/

/-- The code of the module, if that is what a call returns. -/
def LifeRc.pakCode : LifeRc → Option PakRc
  | .pak rc => some rc
  | _ => none

section Life

variable {α : Type} {code : α → Option PakRc}

theorem onMod_tidy {m : ModM α} (hm : Tidy modLens m code) : Tidy lifeLens (onMod m) code :=
  tidy_embed (v := seenBase) (fun _ _ => rfl) nonempty_ret (fun _ => rfl) (fun _ hop => hop)
    (fun _ => rfl) (fun _ _ => rfl) hm

theorem onMod_loose {m : ModM α} (hm : Tidy modLens.loose m code) :
    Tidy lifeLens.loose (onMod m) code :=
  tidy_embed (v := seenBase) (fun _ _ => rfl) nonempty_ret (fun _ => rfl) (fun _ hop => hop)
    (fun _ => rfl) (fun _ _ => rfl) hm

theorem onFiles_tidy {m : FileM α} (hm : Tidy fileLens m code) : Tidy lifeLens (onFiles m) code :=
  tidy_embed seenFiles_ofFile nonempty_fileRet (fun op => by cases op <;> rfl)
    (fun op hop => by cases op <;> exact hop) (fun _ => rfl) (fun _ _ => rfl) hm

theorem onLocks_tidy {m : LockM α} (hm : Tidy lockLens m code) : Tidy lifeLens (onLocks m) code :=
  tidy_embed seenLocks_ofLock nonempty_lockRet (fun op => by cases op <;> rfl)
    (fun op hop => by cases op <;> exact hop) (fun _ => rfl) (fun _ _ => rfl) hm

/-- A call that returns another code. -/
theorem tidy_other {L : Lens LifeOp LifePriv} {rc : LifeRc} (hrc : rc.pakCode = none) :
    Tidy L (pure rc : LifeM LifeRc) LifeRc.pakCode :=
  tidy_pure (by simp [hrc]) (by simp [hrc])

theorem tidy_ok {L : Lens LifeOp LifePriv} : Tidy L (pure (.pak .ok) : LifeM LifeRc) LifeRc.pakCode :=
  tidy_pure (by simp [LifeRc.pakCode]) (by simp [LifeRc.pakCode])

theorem onDisconnect_tidy : Tidy lifeLens onDisconnect LifeRc.pakCode := by
  refine tidy_get_bind fun priv => ?_
  have hdevice : Tidy lifeLens (if priv.dev = true then do
      let _ ← askLife .deviceDisconnect
      return .pak .ok
    else pure (.pak .ok)) LifeRc.pakCode :=
    tidy_ite (tidy_bind (plain_call rfl trivial) fun _ => tidy_ok) tidy_ok
  have hreport := onLocks_tidy (ptpReportError_plain (some "requested disconnect") .ok)
  exact tidy_ite (tidy_bind hreport fun _ => hdevice) hdevice

theorem onRequestFileMetadata_tidy (file : FileHandle) :
    Tidy lifeLens (onRequestFileMetadata file) LifeRc.pakCode := by
  have htransact : Issues Op.OfRuntime (transact (.getObjectInfo (file.indexInView + 1))) :=
    issues_transact trivial
  have hupdate (handle : Int) (oi : ObjectInfo) : Plain lifeLens (platUpdateObjectInfo handle oi) :=
    tidy_bind (onMod_tidy (withRuntime_plain issues_get)) fun _ => plain_call rfl trivial
  refine tidy_get_bind fun priv => tidy_ite ?_ tidy_ok
  refine tidy_bind (onMod_tidy (withRuntime_plain htransact)) fun r => ?_
  refine tidy_ite (tidy_bind (plain_call rfl trivial) fun _ => tidy_ok) (tidy_ite ?_ ?_)
  · exact tidy_map (g := LifeRc.pak) (onMod_tidy (handlePtperr_tidy _ _))
  · exact tidy_bind (hupdate _ _) fun _ => tidy_other rfl

/-- Is it a call that connects? -/
def Callback.connects : Callback → Bool
  | tryConnectUsb _ | tryConnectWifi _ _ _ | tryConnectBluetooth _ _ => true
  | _ => false

/-- Does a call look at arguments that may not be there? -/
def Callback.looks : Callback → Bool
  | customCommand _ | widgetUpdated _ _ => true
  | _ => false

/-- **A call that does not connect** ends as its code says. -/
theorem Callback.tidy {c : Callback} (hconnects : c.connects = false) (hlooks : c.looks = false) :
    Tidy lifeLens c.program LifeRc.pakCode := by
  cases c with
  | tryConnectUsb job => cases hconnects
  | tryConnectWifi fuel handle job => cases hconnects
  | tryConnectBluetooth saved job => cases hconnects
  | requestThumbnail file => exact tidy_map (onLocks_tidy (onRequestThumbnail_tidy file))
  | requestMetadata file => exact onRequestFileMetadata_tidy file
  | requestContents fuel job file => exact tidy_map (onFiles_tidy (onRequestFileContents_tidy fuel))
  | requestLiveviewFrame fuel data handle =>
    exact tidy_map (onLocks_tidy (onRequestLiveviewFrame_plain fuel data handle))
  | idleTick => exact tidy_map (onMod_tidy onIdleTick_tidy)
  | disconnect => exact onDisconnect_tidy
  | switchScreen oldScreen newScreen =>
    exact tidy_map (onMod_tidy (onSwitchScreen_plain oldScreen newScreen))
  | customCommand argv => cases hlooks
  | widgetUpdated name v => cases hlooks

end Life

end Fuji
