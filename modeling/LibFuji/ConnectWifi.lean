/-
Connecting over WiFi (`on_try_connect_wifi` and `on_idle_tick` in `module.c`).

`WifiContract` is what the frontend relies on: setup is started on a connected socket only,
0 is returned only when setup has returned 0, and an error leaves the module without a
runtime, so that idle ticks do not poll.

`onTryConnectWifi_contract`: a call meets the contract just if a setup option is set, discovery
returns an error or `FUJI_D_GO_PTP`, and a wireless tether session that it selects and that can
be connected is set up without an error.
-/
import LibFuji.Discovery
import LibFuji.Module
import LibFuji.Setup

namespace Fuji

open ByteCodec Interaction

/-! ### The code -/

/-- Return codes of the module. -/
inductive PakRc
  | ok | io | noConnection | permission | nonFatal | unsupported | disconnected
  deriving DecidableEq, Repr

def fujiPtpIp : String := "192.168.0.1"

def optionWifiFromBtXapp : String := "wifi-from-bt-xapp"
def optionWifi : String := "wifi"
def optionLocalNetwork : String := "local-network"

def widgetResizeImages : String := "resize-images"
def widgetAutosaveThumbs : String := "autosave-thumbnails"

/-- The string in a buffer of 64 bytes, as `strlcpy` copies it to another. -/
def copiedString (buffer : Vector UInt8 64) : String :=
  String.ofList (((buffer.toList.takeWhile (· ≠ 0)).take 63).map fun c => Char.ofNat c.toNat)

/-- Ask the environment. -/
def askMod (op : Op) : ModM op.Ret := call op

/-- `handle_ptperr`. -/
def handlePtperr (rc : Rc) (action : String) : ModM PakRc := do
  if rc = .ioErr then
    let mod ← get
    let _ ← if mod.dev = false then askMod (.fatalError action) else pure ()
    modify fun mod => { mod with dev := false }
    return .io
  else if rc = .noDevice then return .noConnection
  else if rc = .noPerm then return .permission
  else return .nonFatal

/-- `on_try_connect_wifi`: the label `cleanup`. -/
def cleanup : ModM PakRc := do
  let _ ← askMod .ptpClose
  modify fun mod => { mod with r := none }
  return .noConnection

/-- `on_try_connect_wifi`: the screens and widgets of a gallery. -/
def supportGallery (fuji : PtpRuntime) : ModM Unit := do
  let _ ← askMod (.setScreenSupported .fileViewer)
  let _ ← askMod (.setScreenSupported .fileGallery)
  askMod (.setWidget widgetResizeImages
    (.boolean "Resize images before downloading" fuji.compressImagesForSmartphone))

/-- `on_try_connect_wifi`: what the frontend supports in a camera state. -/
def supportScreens : ModM Unit := do
  let fuji ← withRuntime get
  if fuji.cameraState = fujiModeRemoteImgViewXapp.toUInt32 ∨ fuji.cameraState = fujiRemoteAccess ∨
      fuji.cameraState = fujiModeRemoteImgView.toUInt32 then
    let _ ← askMod (.setScreenSupported .liveview)
    supportGallery fuji
  else if fuji.cameraState = fujiFullAccess then supportGallery fuji
  else if fuji.cameraState = fujiMultipleTransfer then askMod (.setScreenSupported .liveFeed)
  else if fuji.cameraState = fujiPcAutoSave then
    let _ ← askMod (.setScreenSupported .fileViewer)
    let _ ← askMod (.setScreenSupported .fileGallery)
    let _ ← askMod (.setStorageInfo fuji.storageDeviceName fuji.storageInfo)
    askMod (.setWidget widgetAutosaveThumbs (.boolean "Enable thumbnails (buggy)" false))
  else return ()

/-- `on_try_connect_wifi` from the setup on. -/
def startSession (fuel : ℕ) (clientName : List UInt8) : ModM PakRc := do
  let fuji ← withRuntime get
  if fuji.transport = .wirelessTether then
    let rc ← withRuntime (fujitetherSetup clientName)
    if rc ≠ .ok then handlePtperr rc "fujitether_setup" else return .ok
  else
    let rc ← withRuntime (fujiSetup fuel clientName)
    if rc ≠ .ok then cleanup
    else
      supportScreens
      return .ok

/-- `on_try_connect_wifi`: the transport, and the address of the camera. -/
def selectCamera (transport : FujiTransport) (addr : String) : ModM Unit :=
  withRuntime (modify fun fuji => { fuji with transport := transport, ipAddress := addr })

/-- `on_try_connect_wifi`: the command socket, and what follows it. -/
def connectAndStart (port : Int) (extraTimeout fuel : ℕ) (clientName : List UInt8) :
    ModM PakRc := do
  let fuji ← withRuntime get
  let rc : Rc ← askMod (.ptpipConnect fuji.ipAddress port extraTimeout)
  if rc ≠ .ok then cleanup else startSession fuel clientName

/-- `on_try_connect_wifi` for a camera that is its own access point. -/
def connectAccessPoint (transport : FujiTransport) (fuel : ℕ) (clientName : List UInt8) :
    ModM PakRc := do
  selectCamera transport fujiPtpIp
  connectAndStart fujiCmdIpPort 1 fuel clientName

/-- `on_try_connect_wifi` for a camera that is found in the network. -/
def connectDiscovered (fuel : ℕ) (clientName : List UInt8) : ModM PakRc := do
  let r : Int × DiscoverInfo ← askMod (.discoverThread clientName)
  if r.1 < 0 then cleanup
  else if r.1 = fujiDGoPtp then
    selectCamera r.2.transport (copiedString r.2.cameraIp)
    let _ ← askMod (.usleep 1000000)
    connectAndStart r.2.cameraPort 3 fuel clientName
  else if r.1 = fujiDRegistered then return .noConnection
  else startSession fuel clientName

/-- `on_try_connect_wifi`. -/
def onTryConnectWifi (fuel : ℕ) (job : Int) : ModM PakRc := do
  modify fun mod => { mod with currentJob := job, r := some fujiPtpNew }
  let clientName : List UInt8 ← askMod .clientName
  let setupOption : Option String ← askMod .setupOption
  if setupOption = none then return .unsupported
  else if setupOption = some optionWifi then connectAccessPoint .wirelessComm fuel clientName
  else if setupOption = some optionWifiFromBtXapp then
    connectAccessPoint .xappWirelessComm fuel clientName
  else if setupOption = some optionLocalNetwork then connectDiscovered fuel clientName
  else cleanup

/-- `on_idle_tick`: the device. -/
def updateDevice : ModM PakRc := do
  let mod ← get
  if mod.dev = true then
    let isConnected : Bool ← askMod .btDeviceUpdate
    if isConnected = false then
      let _ ← askMod (.fatalError "Disconnected")
      return .disconnected
    else return .ok
  else return .ok

/-- `on_idle_tick`. -/
def onIdleTick : ModM PakRc := do
  let mod ← get
  match mod.r with
  | none => updateDevice
  | some r =>
    if r.connectionType = .usb then
      let rc : Rc ← askMod .usbGetStatus
      if rc ≠ .ok then handlePtperr rc "ptpusb_get_status" else updateDevice
    else
      let rc ← withRuntime fujiGetEvents
      if rc ≠ .ok then handlePtperr rc "fuji_get_events" else updateDevice

/-! ### Setting up a tether session -/

/-- The camera answers the query of its USB mode. -/
def ReadsMode : Event Op Op.Ret → Prop
  | ⟨.ptp (.getPropValue code), r⟩ =>
    let r : Resp (.getPropValue code) := r
    code = dpcUSBMode ∧ r.rc = .ok
  | _ => False

/-- An event that is no query of the mode may be left out. -/
theorem exists_readsMode_cons {e : Event Op Op.Ret} {h : History} (he : ¬ ReadsMode e) :
    (∃ e' ∈ e :: h, ReadsMode e') ↔ ∃ e' ∈ h, ReadsMode e' := by
  rw [List.exists_mem_cons_iff, or_iff_right he]

theorem not_exists_readsMode_nil : ¬ ∃ e ∈ ([] : History), ReadsMode e :=
  fun ⟨_, he, _⟩ => List.not_mem_nil he

/-- The events of the USB setup up to the query of the mode. -/
def usbQueries (r₁ : Resp .openSession) (r₂ : Resp .getDeviceInfo)
    (r₃ : Resp (.getPropValue dpcUSBMode)) : History :=
  [⟨.ptp .openSession, r₁⟩, ⟨.ptp .getDeviceInfo, r₂⟩,
    ⟨.sendCamName (show DeviceInfo from r₂.out).model, ()⟩, ⟨.ptp (.getPropValue dpcUSBMode), r₃⟩]

/-- The runtime behind them. -/
def PtpRuntime.queried (s : PtpRuntime) (r₁ : Resp .openSession) (r₂ : Resp .getDeviceInfo)
    (r₃ : Resp (.getPropValue dpcUSBMode)) : PtpRuntime :=
  ((s.answered r₁.payload).answered r₂.payload).answered r₃.payload

/-- What the USB setup asks, what it is answered, its result, and the state behind it. -/
inductive UsbRun (s : PtpRuntime) : History → Rc → PtpRuntime → Prop
  | noSession (r₁ : Resp .openSession) (hsession : ¬ (r₁.rc = .checkCode ∨ r₁.rc = .ok)) :
      UsbRun s [⟨.ptp .openSession, r₁⟩] r₁.rc (s.answered r₁.payload)
  | noInfo (r₁ : Resp .openSession) (r₂ : Resp .getDeviceInfo)
      (hsession : r₁.rc = .checkCode ∨ r₁.rc = .ok) (hinfo : r₂.rc ≠ .ok) :
      UsbRun s [⟨.ptp .openSession, r₁⟩, ⟨.ptp .getDeviceInfo, r₂⟩] r₂.rc
        ((s.answered r₁.payload).answered r₂.payload)
  | noMode (r₁ : Resp .openSession) (r₂ : Resp .getDeviceInfo)
      (r₃ : Resp (.getPropValue dpcUSBMode)) (hsession : r₁.rc = .checkCode ∨ r₁.rc = .ok)
      (hinfo : r₂.rc = .ok) (hcheck : r₃.rc ≠ .checkCode) (hmode : r₃.rc ≠ .ok) :
      UsbRun s (usbQueries r₁ r₂ r₃) r₃.rc (s.queried r₁ r₂ r₃)
  | cardReader (r₁ : Resp .openSession) (r₂ : Resp .getDeviceInfo)
      (r₃ : Resp (.getPropValue dpcUSBMode)) (hsession : r₁.rc = .checkCode ∨ r₁.rc = .ok)
      (hinfo : r₂.rc = .ok) (hcheck : r₃.rc = .checkCode) :
      UsbRun s (usbQueries r₁ r₂ r₃) .checkCode
        { s.queried r₁ r₂ r₃ with transport := .usbCardReader }
  | mode (r₁ : Resp .openSession) (r₂ : Resp .getDeviceInfo)
      (r₃ : Resp (.getPropValue dpcUSBMode)) (mode : Int32)
      (hsession : r₁.rc = .checkCode ∨ r₁.rc = .ok) (hinfo : r₂.rc = .ok) (hmode : r₃.rc = .ok) :
      UsbRun s (usbQueries r₁ r₂ r₃ ++ [⟨.parsePropValue, mode⟩]) .ok
        { s.queried r₁ r₂ r₃ with transport := transportOfMode mode }

theorem usbRun_of_exec {s s' : PtpRuntime} {h : History} {rc : Rc}
    (hrun : Exec fujiusbSetup s h rc s') : UsbRun s h rc s' := by
  obtain ⟨r₁, h₁, rfl, hrun₁⟩ := exec_transactRc_bind.mp hrun
  by_cases hsession : r₁.rc ≠ .checkCode ∧ r₁.rc ≠ .ok
  · rw [if_pos hsession] at hrun₁
    obtain ⟨rfl, rfl, rfl⟩ := hrun₁.eq_of_ret rfl
    exact .noSession r₁ (not_or.mpr hsession)
  rw [if_neg hsession] at hrun₁
  replace hsession : r₁.rc = .checkCode ∨ r₁.rc = .ok := by
    by_contra hnot
    exact hsession (not_or.mp hnot)
  obtain ⟨r₂, h₂, rfl, hrun₂⟩ := exec_transact_bind.mp hrun₁
  by_cases hinfo : r₂.rc ≠ .ok
  · rw [if_pos hinfo] at hrun₂
    obtain ⟨rfl, rfl, rfl⟩ := hrun₂.eq_of_ret rfl
    exact .noInfo r₁ r₂ hsession hinfo
  rw [if_neg hinfo] at hrun₂
  replace hinfo := not_not.mp hinfo
  obtain ⟨_, h₃, rfl, hrun₃⟩ := exec_ask_bind.mp hrun₂
  obtain ⟨r₃, h₄, rfl, hrun₄⟩ := exec_transactRc_bind.mp hrun₃
  by_cases hcheck : r₃.rc = .checkCode
  · rw [if_pos hcheck] at hrun₄
    obtain ⟨rfl, hrc, rfl⟩ := hrun₄.eq_of_ret rfl
    rw [hrc, hcheck]
    exact .cardReader r₁ r₂ r₃ hsession hinfo hcheck
  rw [if_neg hcheck] at hrun₄
  by_cases hmode : r₃.rc ≠ .ok
  · rw [if_pos hmode] at hrun₄
    obtain ⟨rfl, rfl, rfl⟩ := hrun₄.eq_of_ret rfl
    exact .noMode r₁ r₂ r₃ hsession hinfo hcheck hmode
  rw [if_neg hmode] at hrun₄
  replace hmode := not_not.mp hmode
  obtain ⟨mode, h₅, rfl, hrun₅⟩ := exec_ask_bind.mp hrun₄
  obtain ⟨rfl, hrc, rfl⟩ := hrun₅.eq_of_ret rfl
  rw [hrc, hmode]
  exact .mode r₁ r₂ r₃ mode hsession hinfo hmode

/-- The USB setup succeeds just if it has read the mode. -/
theorem fujiusbSetup_ok_iff {s s' : PtpRuntime} {h : History} {rc : Rc}
    (hrun : Exec fujiusbSetup s h rc s') : rc = .ok ↔ ∃ e ∈ h, ReadsMode e := by
  have hquery {r₁ : Resp .openSession} {r₂ : Resp .getDeviceInfo}
      {r₃ : Resp (.getPropValue dpcUSBMode)} {t : History} (ht : ∀ e ∈ t, ¬ ReadsMode e) :
      (∃ e ∈ usbQueries r₁ r₂ r₃ ++ t, ReadsMode e) ↔ r₃.rc = .ok := by
    constructor
    · rintro ⟨e, he, hmode⟩
      rcases List.mem_append.mp he with he | he
      · simp only [usbQueries, List.mem_cons, List.not_mem_nil, or_false] at he
        rcases he with rfl | rfl | rfl | rfl
        · exact hmode.elim
        · exact hmode.elim
        · exact hmode.elim
        · exact hmode.2
      · exact absurd hmode (ht e he)
    · exact fun hmode => ⟨⟨.ptp (.getPropValue dpcUSBMode), r₃⟩, by simp [usbQueries], rfl, hmode⟩
  cases usbRun_of_exec hrun with
  | noSession r₁ hsession =>
    refine iff_of_false (fun hok => hsession (.inr hok)) ?_
    rw [exists_readsMode_cons id]
    exact not_exists_readsMode_nil
  | noInfo r₁ r₂ hsession hinfo =>
    refine iff_of_false hinfo ?_
    rw [exists_readsMode_cons id, exists_readsMode_cons id]
    exact not_exists_readsMode_nil
  | noMode r₁ r₂ r₃ hsession hinfo hcheck hmode =>
    rw [← List.append_nil (usbQueries r₁ r₂ r₃), hquery (by simp)]
  | cardReader r₁ r₂ r₃ hsession hinfo hcheck =>
    rw [← List.append_nil (usbQueries r₁ r₂ r₃), hquery (by simp), hcheck]
  | mode r₁ r₂ r₃ mode hsession hinfo hmode =>
    rw [hquery (List.forall_mem_singleton.mpr id), hmode]

theorem Op.OfHandshake.not_readsMode {e : Event Op Op.Ret} (he : e.1.OfHandshake) :
    ¬ ReadsMode e := by
  obtain ⟨op, r⟩ := e
  cases op with
  | ptp c => exact he.elim
  | _ => exact id

/-- Events that are no queries of the mode may be left out. -/
theorem exists_readsMode_append {h h' : History} (hnone : ∀ e ∈ h, e.1.OfHandshake) :
    (∃ e ∈ h ++ h', ReadsMode e) ↔ ∃ e ∈ h', ReadsMode e := by
  constructor
  · rintro ⟨e, he, hmode⟩
    rcases List.mem_append.mp he with he | he
    · exact absurd hmode (hnone e he).not_readsMode
    · exact ⟨e, he, hmode⟩
  · rintro ⟨e, he, hmode⟩
    exact ⟨e, List.mem_append_right h he, hmode⟩

/-- The wireless tether setup succeeds just if it has read the mode. -/
theorem fujitetherSetup_ok_iff {clientName : List UInt8} {s s' : PtpRuntime} {h : History} {rc : Rc}
    (hconnection : s.connectionType = .ipUsb) (hrun : Exec (fujitetherSetup clientName) s h rc s') :
    rc = .ok ↔ ∃ e ∈ h, ReadsMode e := by
  have hretry (r : Rc × List UInt8) : Confines Op.OfHandshake Eq (retryHandshake clientName r) :=
    confines_ite (handshake_confines clientName) (confines_pure _)
  have hrun₀ := exec_get_bind.mp hrun
  rw [if_pos hconnection] at hrun₀
  obtain ⟨h₁, r₁, s₁, h₁', rfl, hshake₁, hrun₁⟩ := exec_of_bind hrun₀
  obtain ⟨h₂, r₂, s₂, h₂', rfl, hshake₂, hrun₂⟩ := exec_of_bind hrun₁
  obtain ⟨h₃, r₃, s₃, h₃', rfl, hshake₃, hrun₃⟩ := exec_of_bind hrun₂
  obtain ⟨h₄, r₄, s₄, h₄', rfl, hshake₄, hrun₄⟩ := exec_of_bind hrun₃
  rw [exists_readsMode_append ((handshake_confines clientName).respects _ _ _ _ hshake₁).1,
    exists_readsMode_append ((hretry r₁).respects _ _ _ _ hshake₂).1,
    exists_readsMode_append ((hretry r₂).respects _ _ _ _ hshake₃).1,
    exists_readsMode_append ((hretry r₃).respects _ _ _ _ hshake₄).1]
  by_cases hr : r₄.1 ≠ .ok
  · rw [if_pos hr] at hrun₄
    cases hrun₄
    exact iff_of_false hr not_exists_readsMode_nil
  · rw [if_neg hr] at hrun₄
    obtain ⟨_, h₅, rfl, hrun₅⟩ := exec_ask_bind.mp hrun₄
    obtain ⟨_, h₆, rfl, hrun₆⟩ := exec_ask_bind.mp hrun₅
    rw [exists_readsMode_cons id, exists_readsMode_cons id, fujiusbSetup_ok_iff hrun₆]

/-! ### The contract -/

/-- Operations of `fuji_setup` and `fujitether_setup`, which begin with the mutex. -/
def Op.OfSetup : Op → Prop
  | .ptp _ => True
  | .cmdWrite _ => True
  | .cmdRead _ _ => True
  | .mutexLock => True
  | .mutexUnlock => True
  | _ => False

/-- The command socket has been connected. -/
def Connected (h : History) : Prop :=
  ∃ addr port extraTimeout, (⟨.ptpipConnect addr port extraTimeout, Rc.ok⟩ : Event Op Op.Ret) ∈ h

/-- A setup has returned 0. -/
def SetUp (fuel : ℕ) (h : History) : Prop :=
  ∃ clientName h₁ h₂ h₃ s s', h = h₁ ++ h₂ ++ h₃ ∧
    (Exec (fujiSetup fuel clientName) s h₂ .ok s' ∨ Exec (fujitetherSetup clientName) s h₂ .ok s')

/-- What the frontend relies on when `on_try_connect_wifi` has returned. -/
structure WifiContract (fuel : ℕ) (h : History) (rc : PakRc) (mod : ModulePriv) : Prop where
  connected : Preceded Op.OfSetup Connected h
  setUp : rc = .ok → SetUp fuel h
  closed : rc ≠ .ok → mod.r = none

/-- The setup option of a call. -/
def setupOptionOf (h : History) : Option (Option String) := h.findSome? fun
  | ⟨.setupOption, option⟩ => some option
  | _ => none

/-- The result of discovery in a call. -/
def discoveryOf (h : History) : Option (Int × DiscoverInfo) := h.findSome? fun
  | ⟨.discoverThread _, r⟩ => some r
  | _ => none

/-- There is a setup option, and discovery, if it asks for it, has returned an error or has
found a camera. -/
structure OptionCond (h : History) : Prop where
  given : setupOptionOf h ≠ some none
  discovery : setupOptionOf h = some (some optionLocalNetwork) →
    ∀ r, discoveryOf h = some r → r.1 < 0 ∨ r.1 = fujiDGoPtp

/-- A wireless tether session that discovery has selected, and that is connected, answers the
query of its USB mode. -/
structure WifiCond (h : History) : Prop extends OptionCond h where
  tether : setupOptionOf h = some (some optionLocalNetwork) → ∀ info,
    discoveryOf h = some (fujiDGoPtp, info) → info.transport = .wirelessTether → Connected h →
    ∃ e ∈ h, ReadsMode e

/-! ### The command socket is connected first -/

section Connected

variable {mod mod' : ModulePriv} {r : PtpRuntime} {h : History} {fuel : ℕ}
  {clientName : List UInt8}

theorem withRuntime_get (hr : mod.r = some r) : withRuntime get mod = .ret (r, mod) := by
  obtain ⟨_, dev, currentJob⟩ := mod
  cases hr
  rfl

theorem selectCamera_eq (hr : mod.r = some r) (transport : FujiTransport) (addr : String) :
    selectCamera transport addr mod = .ret ((),
      { mod with r := some { r with transport := transport, ipAddress := addr } }) := by
  obtain ⟨_, dev, currentJob⟩ := mod
  cases hr
  rfl

theorem Connected.cons {e : Event Op Op.Ret} (hc : Connected h) : Connected (e :: h) := by
  obtain ⟨addr, port, extraTimeout, hmem⟩ := hc
  exact ⟨addr, port, extraTimeout, List.mem_cons_of_mem e hmem⟩

theorem preceded_cons {e : Event Op Op.Ret} (he : ¬ e.1.OfSetup)
    (hp : Preceded Op.OfSetup Connected h) : Preceded Op.OfSetup Connected (e :: h) :=
  Preceded.append (h := [e]) (by simpa using he) hp fun _ => Connected.cons

theorem cleanup_issues : Issues (fun op => ¬ op.OfSetup) cleanup :=
  issues_bind (issues_call (id : ¬ Op.OfSetup .ptpClose)) fun _ =>
    issues_bind (issues_modify _) fun _ => issues_pure _

/-- Whatever setup does comes behind the connection. -/
theorem connectAndStart_connected {port : Int} {extraTimeout : ℕ} (hr : mod.r = some r)
    (hreach : Reaches (connectAndStart port extraTimeout fuel clientName) mod h) :
    Preceded Op.OfSetup Connected h := by
  rw [Reaches, connectAndStart, bind_of_ret (withRuntime_get hr)] at hreach
  rcases reaches_call_bind.mp hreach with rfl | ⟨rc, h₁, rfl, hreach₁⟩
  · exact preceded_of_none (by simp)
  have he : ¬ Op.OfSetup (.ptpipConnect r.ipAddress port extraTimeout) := id
  by_cases hrc : (rc : Rc) ≠ .ok
  · rw [if_pos hrc] at hreach₁
    exact preceded_cons he (preceded_of_none (cleanup_issues mod h₁ hreach₁))
  · obtain rfl : rc = Rc.ok := not_not.mp hrc
    refine Preceded.append (P := fun _ => True) (h := [_]) (by simpa using he)
      (fun _ _ _ _ _ => trivial) fun h₂ _ => ?_
    exact ⟨r.ipAddress, port, extraTimeout, List.mem_cons_self⟩

theorem connectAccessPoint_connected {transport : FujiTransport} (hr : mod.r = some r)
    (hreach : Reaches (connectAccessPoint transport fuel clientName) mod h) :
    Preceded Op.OfSetup Connected h := by
  rw [Reaches, connectAccessPoint, bind_of_ret (selectCamera_eq hr _ _)] at hreach
  exact connectAndStart_connected rfl hreach

theorem connectDiscovered_connected (hr : mod.r = some r)
    (hreach : Reaches (connectDiscovered fuel clientName) mod h)
    (hdiscovery : ∀ r, discoveryOf h = some r → r.1 < 0 ∨ r.1 = fujiDGoPtp) :
    Preceded Op.OfSetup Connected h := by
  rcases reaches_call_bind.mp hreach with rfl | ⟨d, h₁, rfl, hreach₁⟩
  · exact preceded_of_none (by simp)
  have he : ¬ Op.OfSetup (.discoverThread clientName) := id
  have hd : d.1 < 0 ∨ d.1 = fujiDGoPtp := hdiscovery d rfl
  by_cases hneg : d.1 < 0
  · rw [if_pos hneg] at hreach₁
    exact preceded_cons he (preceded_of_none (cleanup_issues mod h₁ hreach₁))
  rw [if_neg hneg, if_pos (hd.resolve_left hneg)] at hreach₁
  rw [Reaches, bind_of_ret (selectCamera_eq hr _ _)] at hreach₁
  rcases reaches_call_bind.mp hreach₁ with rfl | ⟨_, h₂, rfl, hreach₂⟩
  · exact preceded_cons he (preceded_of_none (by simp))
  · exact preceded_cons he (preceded_cons (id : ¬ Op.OfSetup (.usleep 1000000))
      (connectAndStart_connected rfl hreach₂))

/-- **Setup is started on a connected socket only**, also in calls that do not return. -/
theorem onTryConnectWifi_connected {job : Int} (hreach : Reaches (onTryConnectWifi fuel job) mod h)
    (hcond : OptionCond h) : Preceded Op.OfSetup Connected h := by
  have hreach₀ := reaches_modify_bind.mp hreach
  rcases reaches_call_bind.mp hreach₀ with rfl | ⟨name, h₁, rfl, hreach₁⟩
  · exact preceded_of_none (by simp)
  rcases reaches_call_bind.mp hreach₁ with rfl | ⟨option, h₂, rfl, hreach₂⟩
  · exact preceded_of_none (List.forall_mem_singleton.mpr (id : ¬ Op.OfSetup .clientName))
  refine preceded_cons (id : ¬ Op.OfSetup .clientName)
    (preceded_cons (id : ¬ Op.OfSetup .setupOption) ?_)
  by_cases hnone : option = none
  · exact absurd (congrArg some hnone) hcond.given
  rw [if_neg hnone] at hreach₂
  by_cases hwifi : option = some optionWifi
  · rw [if_pos hwifi] at hreach₂
    exact connectAccessPoint_connected rfl hreach₂
  rw [if_neg hwifi] at hreach₂
  by_cases hxapp : option = some optionWifiFromBtXapp
  · rw [if_pos hxapp] at hreach₂
    exact connectAccessPoint_connected rfl hreach₂
  rw [if_neg hxapp] at hreach₂
  by_cases hlocal : option = some optionLocalNetwork
  · rw [if_pos hlocal] at hreach₂
    exact connectDiscovered_connected rfl hreach₂ (hcond.discovery (congrArg some hlocal))
  · rw [if_neg hlocal] at hreach₂
    exact preceded_of_none (cleanup_issues _ h₂ hreach₂)

/-! ### What a call leaves behind -/

theorem SetUp.append {h₁ h₂ : History} (hset : SetUp fuel h) : SetUp fuel (h₁ ++ h ++ h₂) := by
  obtain ⟨clientName, h₃, h₄, h₅, s, s', rfl, hrun⟩ := hset
  exact ⟨clientName, h₁ ++ h₃, h₄, h₅ ++ h₂, s, s', by simp, hrun⟩

theorem SetUp.cons {e : Event Op Op.Ret} (hset : SetUp fuel h) : SetUp fuel (e :: h) := by
  have happend : SetUp fuel ([e] ++ h ++ []) := hset.append
  rwa [List.append_nil] at happend

/-- An error is handed on, and the runtime is kept. -/
theorem handlePtperr_spec {rc : Rc} {action : String} {pak : PakRc}
    (hrun : Exec (handlePtperr rc action) mod h pak mod') :
    pak ≠ .ok ∧ mod'.r = mod.r ∧ ∀ e ∈ h, ¬ ReadsMode e := by
  by_cases hio : rc = .ioErr
  · rw [handlePtperr, if_pos hio] at hrun
    have hrun₀ := exec_get_bind.mp hrun
    by_cases hdev : mod.dev = false
    · rw [if_pos hdev] at hrun₀
      obtain ⟨_, h₁, rfl, hrun₁⟩ := exec_call_bind.mp hrun₀
      cases hrun₁
      exact ⟨by simp, rfl, List.forall_mem_singleton.mpr id⟩
    · rw [if_neg hdev] at hrun₀
      cases hrun₀
      exact ⟨by simp, rfl, by simp⟩
  rw [handlePtperr, if_neg hio] at hrun
  by_cases hdevice : rc = .noDevice
  · rw [if_pos hdevice] at hrun
    cases hrun
    exact ⟨by simp, rfl, by simp⟩
  rw [if_neg hdevice] at hrun
  by_cases hperm : rc = .noPerm
  · rw [if_pos hperm] at hrun
    cases hrun
    exact ⟨by simp, rfl, by simp⟩
  · rw [if_neg hperm] at hrun
    cases hrun
    exact ⟨by simp, rfl, by simp⟩

theorem cleanup_spec {pak : PakRc} (hrun : Exec cleanup mod h pak mod') :
    h = [⟨.ptpClose, ()⟩] ∧ pak ≠ .ok ∧ mod'.r = none := by
  obtain ⟨_, h₁, rfl, hrun₁⟩ := exec_call_bind.mp hrun
  cases hrun₁
  exact ⟨rfl, by simp, rfl⟩

/-- A tether session that cannot be set up leaves its runtime behind. -/
theorem startSession_tether {pak : PakRc} (hr : mod.r = some r)
    (htether : r.transport = .wirelessTether) (hconnection : r.connectionType = .ipUsb)
    (hrun : Exec (startSession fuel clientName) mod h pak mod') :
    (pak = .ok → SetUp fuel h) ∧
      ((pak ≠ .ok → mod'.r = none) ↔ ∃ e ∈ h, ReadsMode e) := by
  rw [Exec, startSession, bind_of_ret (withRuntime_get hr), if_pos htether] at hrun
  obtain ⟨h₁, rc, mod₁, h₂, rfl, hsetup, hrun₁⟩ := exec_of_bind hrun
  obtain ⟨r₁, r', hr₁, hsetup₁, rfl⟩ := exec_withRuntime.mp hsetup
  obtain rfl : r = r₁ := Option.some.inj (hr.symm.trans hr₁)
  have hiff := fujitetherSetup_ok_iff hconnection hsetup₁
  by_cases hrc : rc ≠ .ok
  · rw [if_pos hrc] at hrun₁
    obtain ⟨hpak, hkeep, hnone⟩ := handlePtperr_spec hrun₁
    refine ⟨fun hok => absurd hok hpak, iff_of_false (fun hclosed => ?_) ?_⟩
    · have hsome : mod'.r = some r' := hkeep
      exact absurd (hsome.symm.trans (hclosed hpak)) (by simp)
    · rintro ⟨e, he, hmode⟩
      rcases List.mem_append.mp he with he | he
      · exact hrc (hiff.mpr ⟨e, he, hmode⟩)
      · exact hnone e he hmode
  · rw [if_neg hrc] at hrun₁
    cases hrun₁
    obtain rfl := not_not.mp hrc
    rw [List.append_nil]
    exact ⟨fun _ => ⟨clientName, [], h₁, [], r, r', by simp, .inr hsetup₁⟩,
      iff_of_true (fun hpak => absurd rfl hpak) (hiff.mp rfl)⟩

/-- Any other session is closed when it cannot be set up. -/
theorem startSession_wireless {pak : PakRc} (hr : mod.r = some r)
    (htether : r.transport ≠ .wirelessTether)
    (hrun : Exec (startSession fuel clientName) mod h pak mod') :
    (pak = .ok → SetUp fuel h) ∧ (pak ≠ .ok → mod'.r = none) ∧ ∃ h', h = ⟨.mutexLock, ()⟩ :: h' := by
  rw [Exec, startSession, bind_of_ret (withRuntime_get hr), if_neg htether] at hrun
  obtain ⟨h₁, rc, mod₁, h₂, rfl, hsetup, hrun₁⟩ := exec_of_bind hrun
  obtain ⟨r₁, r', hr₁, hsetup₁, rfl⟩ := exec_withRuntime.mp hsetup
  have hlock : ∃ h', h₁ = ⟨.mutexLock, ()⟩ :: h' := by
    obtain ⟨h₃, _, s₁, h₄, rfl, hinit, -⟩ := exec_of_bind hsetup₁
    obtain ⟨h₅, _, s₂, h₆, rfl, hshake, -⟩ := exec_of_bind hinit
    obtain ⟨_, h₇, rfl, -⟩ := exec_ask_bind.mp hshake
    exact ⟨_, rfl⟩
  obtain ⟨h', rfl⟩ := hlock
  by_cases hrc : rc ≠ .ok
  · rw [if_pos hrc] at hrun₁
    obtain ⟨rfl, hpak, hclosed⟩ := cleanup_spec hrun₁
    exact ⟨fun hok => absurd hok hpak, fun _ => hclosed, _, rfl⟩
  · rw [if_neg hrc] at hrun₁
    obtain rfl := not_not.mp hrc
    obtain ⟨h₃, _, mod₂, h₄, rfl, -, hret⟩ := exec_of_bind hrun₁
    cases hret
    exact ⟨fun _ => ⟨clientName, [], _, _, r₁, r', rfl, .inl hsetup₁⟩, fun hpak => absurd rfl hpak,
      _, rfl⟩

theorem connected_cons_iff {e : Event Op Op.Ret}
    (he : ∀ addr port extraTimeout, e.1 ≠ .ptpipConnect addr port extraTimeout) :
    Connected (e :: h) ↔ Connected h := by
  refine ⟨?_, Connected.cons⟩
  rintro ⟨addr, port, extraTimeout, hmem⟩
  rcases List.mem_cons.mp hmem with rfl | hmem
  · exact absurd rfl (he addr port extraTimeout)
  · exact ⟨addr, port, extraTimeout, hmem⟩

theorem connectAndStart_closed {port : Int} {extraTimeout : ℕ} {pak : PakRc} (hr : mod.r = some r)
    (hconnection : r.connectionType = .ipUsb)
    (hrun : Exec (connectAndStart port extraTimeout fuel clientName) mod h pak mod') :
    (pak = .ok → SetUp fuel h) ∧ ((pak ≠ .ok → mod'.r = none) ↔
      (r.transport = .wirelessTether → Connected h → ∃ e ∈ h, ReadsMode e)) := by
  rw [Exec, connectAndStart, bind_of_ret (withRuntime_get hr)] at hrun
  obtain ⟨rc, h₁, rfl, hrun₁⟩ := exec_call_bind.mp hrun
  by_cases hrc : (rc : Rc) ≠ .ok
  · rw [if_pos hrc] at hrun₁
    obtain ⟨rfl, hpak, hclosed⟩ := cleanup_spec hrun₁
    refine ⟨fun hok => absurd hok hpak, iff_of_true (fun _ => hclosed) fun _ hc => ?_⟩
    -- the socket has not been connected
    obtain ⟨addr, port, extraTimeout, hmem⟩ := hc
    rcases List.mem_cons.mp hmem with heq | hmem
    · cases heq
      exact absurd rfl hrc
    · exact absurd (List.mem_singleton.mp hmem) (by simp)
  · rw [if_neg hrc] at hrun₁
    obtain rfl : rc = Rc.ok := not_not.mp hrc
    by_cases htether : r.transport = .wirelessTether
    · obtain ⟨hset, hiff⟩ := startSession_tether hr htether hconnection hrun₁
      have hc : Connected (⟨.ptpipConnect r.ipAddress port extraTimeout, Rc.ok⟩ :: h₁) :=
        ⟨r.ipAddress, port, extraTimeout, List.mem_cons_self⟩
      refine ⟨fun hok => (hset hok).cons, hiff.trans ?_⟩
      rw [exists_readsMode_cons id]
      exact ⟨fun hmode _ _ => hmode, fun hmode => hmode htether hc⟩
    · obtain ⟨hset, hclosed, -⟩ := startSession_wireless hr htether hrun₁
      exact ⟨fun hok => (hset hok).cons,
        iff_of_true hclosed fun htether' => absurd htether' htether⟩

/-- What a call with the option of the network leaves behind depends on discovery. -/
theorem connectDiscovered_closed {pak : PakRc} (hr : mod.r = some fujiPtpNew)
    (hrun : Exec (connectDiscovered fuel clientName) mod h pak mod') :
    (pak = .ok → SetUp fuel h) ∧
      (Preceded Op.OfSetup Connected h ∧ (pak ≠ .ok → mod'.r = none) ↔
        (∀ d, discoveryOf h = some d → d.1 < 0 ∨ d.1 = fujiDGoPtp) ∧
          ∀ info, discoveryOf h = some (fujiDGoPtp, info) → info.transport = .wirelessTether →
            Connected h → ∃ e ∈ h, ReadsMode e) := by
  have hpreceded := connectDiscovered_connected hr hrun.reaches
  obtain ⟨d, h₁, rfl, hrun₁⟩ := exec_call_bind.mp hrun
  have hd : discoveryOf (⟨.discoverThread clientName, d⟩ :: h₁) = some d := rfl
  have hcond (hgood : d.1 < 0 ∨ d.1 = fujiDGoPtp) :
      ∀ d', discoveryOf (⟨.discoverThread clientName, d⟩ :: h₁) = some d' →
        d'.1 < 0 ∨ d'.1 = fujiDGoPtp := by
    intro d' hd'
    rwa [← Option.some.inj (hd.symm.trans hd')]
  by_cases hneg : d.1 < 0
  · rw [if_pos hneg] at hrun₁
    obtain ⟨rfl, hpak, hclosed⟩ := cleanup_spec hrun₁
    refine ⟨fun hok => absurd hok hpak, iff_of_true ⟨hpreceded (hcond (.inl hneg)), fun _ => hclosed⟩
      ⟨hcond (.inl hneg), fun info hinfo => ?_⟩⟩
    obtain rfl := Option.some.inj (hd.symm.trans hinfo)
    exact absurd hneg (show ¬ fujiDGoPtp < 0 by decide)
  rw [if_neg hneg] at hrun₁
  by_cases hgo : d.1 = fujiDGoPtp
  · rw [if_pos hgo, Exec, bind_of_ret (selectCamera_eq hr _ _)] at hrun₁
    obtain ⟨_, h₂, rfl, hrun₂⟩ := exec_call_bind.mp hrun₁
    obtain ⟨hset, hiff⟩ := connectAndStart_closed rfl rfl hrun₂
    refine ⟨fun hok => (hset hok).cons.cons, ?_⟩
    rw [and_iff_right (hpreceded (hcond (.inr hgo))), and_iff_right (hcond (.inr hgo)), hiff,
      exists_readsMode_cons id, exists_readsMode_cons id, connected_cons_iff (by simp),
      connected_cons_iff (by simp)]
    constructor
    · intro hmode info hinfo
      obtain rfl := Option.some.inj (hd.symm.trans hinfo)
      exact hmode
    · exact fun hmode => hmode d.2 (by rw [hd, ← hgo])
  rw [if_neg hgo] at hrun₁
  have hbad : ¬ ((∀ d', discoveryOf (⟨.discoverThread clientName, d⟩ :: h₁) = some d' →
        d'.1 < 0 ∨ d'.1 = fujiDGoPtp) ∧ ∀ info, discoveryOf (⟨.discoverThread clientName, d⟩ :: h₁)
          = some (fujiDGoPtp, info) → info.transport = .wirelessTether →
            Connected (⟨.discoverThread clientName, d⟩ :: h₁) →
              ∃ e ∈ ⟨.discoverThread clientName, d⟩ :: h₁, ReadsMode e) :=
    fun hall => (hall.1 d hd).elim hneg hgo
  by_cases hregistered : d.1 = fujiDRegistered
  · rw [if_pos hregistered] at hrun₁
    cases hrun₁
    refine ⟨fun hok => absurd hok (by simp), iff_of_false (fun hall => ?_) hbad⟩
    exact absurd (hr.symm.trans (hall.2 (by simp))) (by simp)
  · rw [if_neg hregistered] at hrun₁
    obtain ⟨hset, hclosed, h₂, rfl⟩ := startSession_wireless hr (by decide) hrun₁
    refine ⟨fun hok => (hset hok).cons, iff_of_false (fun hall => ?_) hbad⟩
    -- setup has started, and nothing has been connected
    obtain ⟨addr, port, extraTimeout, hmem⟩ :=
      hall.1 [⟨.discoverThread clientName, d⟩] ⟨.mutexLock, ()⟩ h₂ rfl trivial
    exact absurd (List.mem_singleton.mp hmem) (by simp)

/-- What a call with an access point leaves behind. -/
theorem connectAccessPoint_closed {transport : FujiTransport} {pak : PakRc}
    (htether : transport ≠ .wirelessTether) (hr : mod.r = some fujiPtpNew)
    (hrun : Exec (connectAccessPoint transport fuel clientName) mod h pak mod') :
    (pak = .ok → SetUp fuel h) ∧ (pak ≠ .ok → mod'.r = none) := by
  rw [Exec, connectAccessPoint, bind_of_ret (selectCamera_eq hr _ _)] at hrun
  obtain ⟨hset, hiff⟩ := connectAndStart_closed rfl rfl hrun
  exact ⟨hset, hiff.mpr fun htether' => absurd htether' htether⟩

/-- What a finished call leaves behind. -/
theorem onTryConnectWifi_contract_iff {job : Int} {pak : PakRc}
    (hrun : Exec (onTryConnectWifi fuel job) mod h pak mod') :
    WifiContract fuel h pak mod' ↔ WifiCond h := by
  have hconnected := onTryConnectWifi_connected hrun.reaches
  have hrun₀ := exec_modify_bind.mp hrun
  obtain ⟨name, h₁, rfl, hrun₁⟩ := exec_call_bind.mp hrun₀
  obtain ⟨option, h₂, rfl, hrun₂⟩ := exec_call_bind.mp hrun₁
  have hoption : setupOptionOf (⟨.clientName, name⟩ :: ⟨.setupOption, option⟩ :: h₂)
      = some option := rfl
  -- the other options meet the contract, and no condition is on them
  have hother (hnone : option ≠ none) (hlocal : option ≠ some optionLocalNetwork)
      (hset : pak = .ok → SetUp fuel h₂) (hclosed : pak ≠ .ok → mod'.r = none) :
      WifiContract fuel (⟨.clientName, name⟩ :: ⟨.setupOption, option⟩ :: h₂) pak mod' ↔
        WifiCond (⟨.clientName, name⟩ :: ⟨.setupOption, option⟩ :: h₂) := by
    have hcond : OptionCond (⟨.clientName, name⟩ :: ⟨.setupOption, option⟩ :: h₂) :=
      ⟨fun hgiven => hnone (Option.some.inj (hoption.symm.trans hgiven)),
        fun hlocal' => absurd (Option.some.inj (hoption.symm.trans hlocal')) hlocal⟩
    exact iff_of_true ⟨hconnected hcond, fun hok => (hset hok).cons.cons, hclosed⟩
      ⟨hcond, fun hlocal' => absurd (Option.some.inj (hoption.symm.trans hlocal')) hlocal⟩
  by_cases hnone : option = none
  · subst hnone
    rw [if_pos rfl] at hrun₂
    cases hrun₂
    exact iff_of_false (fun hall => absurd (hall.closed (by simp)) (by simp))
      fun hall => hall.given rfl
  rw [if_neg hnone] at hrun₂
  by_cases hwifi : option = some optionWifi
  · rw [if_pos hwifi] at hrun₂
    obtain ⟨hset, hclosed⟩ := connectAccessPoint_closed (by decide) rfl hrun₂
    exact hother hnone (by rw [hwifi]; decide) hset hclosed
  rw [if_neg hwifi] at hrun₂
  by_cases hxapp : option = some optionWifiFromBtXapp
  · rw [if_pos hxapp] at hrun₂
    obtain ⟨hset, hclosed⟩ := connectAccessPoint_closed (by decide) rfl hrun₂
    exact hother hnone (by rw [hxapp]; decide) hset hclosed
  rw [if_neg hxapp] at hrun₂
  by_cases hlocal : option = some optionLocalNetwork
  · subst hlocal
    rw [if_pos rfl] at hrun₂
    obtain ⟨hset, hiff⟩ := connectDiscovered_closed rfl hrun₂
    constructor
    · intro hall
      have htail : Preceded Op.OfSetup Connected h₂ := by
        rintro h₃ e h₄ rfl he
        have hc := hall.connected (⟨.clientName, name⟩ :: ⟨.setupOption, _⟩ :: h₃) e h₄ rfl he
        rwa [connected_cons_iff (by simp), connected_cons_iff (by simp)] at hc
      obtain ⟨hdiscovery, htether⟩ := hiff.mp ⟨htail, hall.closed⟩
      refine ⟨⟨by simp [hoption], fun _ => hdiscovery⟩, fun _ info hinfo ht hc => ?_⟩
      rw [exists_readsMode_cons id, exists_readsMode_cons id]
      rw [connected_cons_iff (by simp), connected_cons_iff (by simp)] at hc
      exact htether info hinfo ht hc
    · intro hcond
      refine ⟨hconnected hcond.toOptionCond, fun hok => (hset hok).cons.cons, (hiff.mpr
        ⟨hcond.discovery hoption, fun info hinfo ht hc => ?_⟩).2⟩
      have hmode := hcond.tether hoption info hinfo ht hc.cons.cons
      rwa [exists_readsMode_cons id, exists_readsMode_cons id] at hmode
  · rw [if_neg hlocal] at hrun₂
    obtain ⟨rfl, hpak, hclosed⟩ := cleanup_spec hrun₂
    exact hother hnone hlocal (fun hok => absurd hok hpak) fun _ => hclosed

end Connected

/-! ### Two calls -/

theorem exec_askMod {mod : ModulePriv} {op : Op} (r : op.Ret) :
    Exec (askMod op) mod [⟨op, r⟩] r mod := exec_call r

/-- A module without a connection. -/
def idleModule : ModulePriv := ⟨none, false, 0⟩

/-- What a camera for wireless tethering tells discovery. -/
def tetherInfo : DiscoverInfo :=
  { DiscoverInfo.zero with transport := .wirelessTether, cameraPort := 55740 }

/-- The USB setup, with a camera that answers everything. -/
theorem fujiusbSetup_run (s : PtpRuntime) :
    ∃ h s', Exec fujiusbSetup s h .ok s' ∧ s'.transport = .usbTetherShoot :=
  ⟨_, _, exec_bind (exec_transactRc ⟨.ok, [], (0x2001 : UInt16)⟩) <| exec_ite_neg (by simp) <|
    exec_bind (exec_transact ⟨.ok, [], (⟨[], []⟩ : DeviceInfo)⟩) <| exec_ite_neg (by simp) <|
    exec_bind (exec_ask ()) <| exec_bind (exec_transactRc ⟨.ok, [], ()⟩) <|
    exec_ite_neg (by simp) <| exec_ite_neg (by simp) <| exec_bind (exec_ask fujiUsbModeTether) <|
    exec_bind (exec_modify _) (exec_pure _), rfl⟩

/-- A tether session is found, connected and set up; the camera is in its mode for tethering. -/
theorem onTryConnectWifi_run_tether : ∃ t mod', Exec (onTryConnectWifi 0 1) idleModule
    (⟨.clientName, ([] : List UInt8)⟩ :: ⟨.setupOption, some optionLocalNetwork⟩ ::
      ⟨.discoverThread [], (fujiDGoPtp, tetherInfo)⟩ :: t) .ok mod' ∧
    (∃ e ∈ t, ReadsMode e) ∧ mod'.r.map (·.transport) = some .usbTetherShoot := by
  let s : PtpRuntime :=
    { fujiPtpNew with transport := .wirelessTether, ipAddress := copiedString tetherInfo.cameraIp }
  let mod : ModulePriv := ⟨some s, false, 1⟩
  obtain ⟨hs, hshake⟩ := @handshake_run [] (leBytes 4 0x52)
    (leBytes 4 ptpipInitCommandAck) (by decide) s
  obtain ⟨hu, s', husb, htransport⟩ := fujiusbSetup_run s
  have hsetup : Exec (fujitetherSetup []) s _ .ok s' :=
    exec_bind exec_get <| exec_ite_pos rfl <| exec_bind hshake <|
      exec_bind (exec_ite_neg (by simp) (exec_pure _)) <|
      exec_bind (exec_ite_neg (by simp) (exec_pure _)) <|
      exec_bind (exec_ite_neg (by simp) (exec_pure _)) <| exec_ite_neg (by simp) <|
      exec_bind (exec_ask ()) <| exec_bind (exec_ask ()) husb
  have hsession : Exec (startSession 0 []) mod _ .ok { mod with r := some s' } :=
    exec_bind (exec_of_ret (withRuntime_get rfl)) <| exec_ite_pos rfl <|
      exec_bind (exec_withRuntime.mpr ⟨s, s', rfl, hsetup, rfl⟩) <|
      exec_ite_neg (by simp) (exec_pure _)
  have hconnect : Exec (connectAndStart tetherInfo.cameraPort 3 0 []) mod _ .ok _ :=
    exec_bind (exec_of_ret (withRuntime_get rfl)) <|
      exec_bind (@exec_askMod _ (.ptpipConnect s.ipAddress 55740 3) Rc.ok) <|
      exec_ite_neg (by simp) hsession
  have hfound : Exec (connectDiscovered 0 []) ⟨some fujiPtpNew, false, 1⟩ _ .ok _ :=
    exec_bind (@exec_askMod _ (.discoverThread []) (fujiDGoPtp, tetherInfo)) <|
      exec_ite_neg (by decide) <| exec_ite_pos rfl <|
      exec_bind (exec_of_ret (selectCamera_eq rfl _ _)) <|
      exec_bind (@exec_askMod _ (.usleep 1000000) ()) hconnect
  have hrun : Exec (onTryConnectWifi 0 1) idleModule _ .ok _ :=
    exec_bind (exec_modify _) <| exec_bind (@exec_askMod _ .clientName ([] : List UInt8)) <|
      exec_bind (@exec_askMod _ .setupOption (some optionLocalNetwork)) <|
      exec_ite_neg (by simp) <| exec_ite_neg (by decide) <| exec_ite_neg (by decide) <|
      exec_ite_pos rfl hfound
  obtain ⟨e, he, hmode⟩ := (fujitetherSetup_ok_iff rfl hsetup).mp rfl
  refine ⟨_, _, hrun, ⟨e, ?_, hmode⟩, congrArg some htransport⟩
  simp only [List.nil_append, List.append_nil, List.cons_append] at he ⊢
  exact List.mem_append_right [_, _] he

end Fuji
