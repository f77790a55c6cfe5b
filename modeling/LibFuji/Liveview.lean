/-
Liveview and the image gallery (`fuji_config_liveview`, `fuji_end_liveview` and
`fuji_config_image_gallery` in `fuji.c`).

`CaptureState` is what the camera knows of captures: the id of the next transaction, and the
transaction that has opened a capture.  It follows the history (`CaptureState.run`), and
refuses a second InitiateOpenCapture and a TerminateOpenCapture with another id.

* `fujiConfigLiveview_captures`: liveview is entered with a capture open, unless a step behind
  the accepted InitiateOpenCapture fails;
* `fujiEndLiveview_captures`: it is left with no capture open, if the camera accepts the
  TerminateOpenCapture.
-/
import LibFuji.Events

namespace Fuji

open Interaction

/-! ### The code -/

def fujiEventIpPort : ℕ := 55741
def fujiLiveviewIpPort : ℕ := 55742

/-- `FUJI_CAM_CONNECT_REMOTE_VER`. -/
def fujiCamConnectRemoteVer : Int32 := 0x2000c

/-- `enum FujiCameraStates`: gallery and remote mode. -/
def fujiRemoteAccess : UInt32 := 6

/-! Values of `PTP_DPC_FUJI_ClientState_DF01`. -/

def fujiRemoteMode : UInt16 := 5
def fujiModeRemoteImgView : UInt16 := 11
def fujiModeRemoteImgViewXapp : UInt16 := 20
def fujiModeRemoteLiveViewXapp : UInt16 := 22

/-! Operation codes. -/

def ocFujiGetImageImportFolders : ℕ := 0x9050
def ocFujiGetImageImportDates : ℕ := 0x9053
def ocFujiGetExtensionObjectInfo : ℕ := 0x9054
def ocFujiGetExtensionThumb : ℕ := 0x9055

/-- `fuji_xapp_config_gallery`. -/
def fujiXappConfigGallery : PtpM Rc :=
  andThen (transactRc (.getPropValue dpcRemotePhotoViewExVersion)) do
    let val : Int32 ← ask .parsePropValue
    let version : Int32 ← ask .parsePropValue
    modify fun fuji => { fuji with remoteImageViewExVersion := version }
    andThen (transactRc (.setPropValue dpcRemotePhotoViewExVersion val)) <|
      andThen (transactRc (.setPropValue16 dpcCompressSmall 0)) <|
      andThen (transactRc (.setPropValue16 dpcEnableCorrectFileSize 0)) <|
      andThen (transactRc (.send ocFujiGetExtensionObjectInfo [0x10000001])) <|
      andThen (transactRc (.send ocFujiGetExtensionThumb [0x10000001])) <|
      andThen (transactRc (.send ocFujiGetImageImportFolders [])) <|
      andThen (transactRc (.getPropValue dpcUnknownD22B)) <|
      andThen (transactRc (.send ocFujiGetImageImportDates [0, 30000])) <|
      andThen (transactRc (.getPropValue dpcImageImportObjectCount)) <|
      transactRc (.getPropValue dpcImageImportObjectHandles)

/-- `fuji_end_liveview`. -/
def fujiEndLiveview : PtpM Rc := do
  let fuji ← get
  if fuji.remoteVersion = -1 then return .ok
  else andThen fujiGetEvents do
    let fuji ← get
    transactRc (.terminateOpenCapture fuji.openCaptureTransId)

/-- `fuji_config_liveview` for cameras of the newer app. -/
def xappConfigLiveview : PtpM Rc :=
  andThen (transactRc (.setPropValue16 dpcCameraState fujiRemoteAccess.toUInt16)) <|
    andThen (transactRc (.setPropValue16 dpcClientState fujiModeRemoteLiveViewXapp)) <|
    andThen (transactRc (.getPropValue dpcUnknownDF2A)) do
      let value : Int32 ← ask .parsePropValue
      transactRc (.setPropValue dpcUnknownDF2A value)

/-- `fuji_config_liveview` on subsequent switches. -/
def resumeRemoteMode : PtpM Rc :=
  andThen (transactRc (.setPropValue16 dpcCameraState fujiRemoteAccess.toUInt16)) <|
    andThen fujiGetEvents <|
    andThen (transactRc (.setPropValue16 dpcClientState fujiRemoteMode)) <|
    andThen (transactRc (.getPropValue dpcRemoteVersion)) <|
    andThen (transactRc (.setPropValue dpcRemoteVersion fujiCamConnectRemoteVer)) fujiGetEvents

/-- `fuji_config_liveview`: the sockets for events and video. -/
def connectLiveviewSockets : PtpM Rc := do
  let fuji ← get
  if fuji.openedLiveviewSockets = false then
    andThen (ask (.connectEvents fuji.ipAddress fujiEventIpPort)) <|
      andThen (ask (.connectVideo fuji.ipAddress fujiLiveviewIpPort)) do
        modify fun fuji => { fuji with openedLiveviewSockets := true }
        return .ok
  else return .ok

/-- `fuji_config_liveview` behind an accepted InitiateOpenCapture. -/
def followCapture : PtpM Rc :=
  andThen fujiGetEvents do
    let _ ← ask (.usleep 50000)
    connectLiveviewSockets

/-- `fuji_config_liveview` from the capture on. -/
def openCapture : PtpM Rc := do
  modify fun fuji => { fuji with openCaptureTransId := fuji.transaction }
  andThen (transactRc (.initOpenCapture 0 0)) followCapture

/-- `fuji_config_liveview`. -/
def fujiConfigLiveview : PtpM Rc := do
  let fuji ← get
  andThen (if fuji.transport = .xappWirelessComm then xappConfigLiveview else return .ok) do
    let fuji ← get
    if fuji.remoteVersion ≠ -1 then
      andThen (if fuji.openedLiveviewSockets = true then resumeRemoteMode else return .ok) openCapture
    else return .ok

/-- `fuji_config_image_gallery` for cameras of the older app. -/
def configGalleryVersion : PtpM Rc :=
  andThen fujiGetEvents do
    let rc ← transactRc (.getPropValue dpcRemoteGetObjectVersion)
    let version : Int32 ← ask .parsePropValue
    modify fun fuji => { fuji with remoteImageViewVersion := version }
    if rc ≠ .ok then return rc else transactRc (.setPropValue dpcRemoteGetObjectVersion 5)

/-- `fuji_config_image_gallery`. -/
def fujiConfigImageGallery : PtpM Rc := do
  let fuji ← get
  if fuji.connectionType = .usb ∨ fuji.transport = .wirelessTether then return .ok
  else if fuji.remoteImageViewVersion ≠ -1 then
    andThen fujiGetEvents <|
      andThen (transactRc (.setPropValue16 dpcCameraState fujiRemoteAccess.toUInt16)) <|
      andThen fujiGetEvents <| andThen fujiGetEvents do
        let fuji ← get
        if fuji.transport = .xappWirelessComm then
          andThen (transactRc (.setPropValue16 dpcClientState fujiModeRemoteImgViewXapp)) <|
            andThen fujiXappConfigGallery fujiGetEvents
        else
          andThen (transactRc (.setPropValue16 dpcClientState fujiModeRemoteImgView)) <|
            andThen configGalleryVersion fujiGetEvents
  else return .ok

/-! ### Captures -/

/-- What the camera knows of captures: the id of the next transaction, and the id of the
transaction that has opened the capture. -/
structure CaptureState where
  transaction : UInt32
  opened : Option UInt32
  deriving DecidableEq

namespace CaptureState

/-- A transaction that neither opens nor terminates a capture. -/
def count (m : CaptureState) : CaptureState := ⟨m.transaction + 1, m.opened⟩

/-- InitiateOpenCapture must find no capture open, and TerminateOpenCapture the one it names. -/
def step (m : CaptureState) : Event Op Op.Ret → Option CaptureState
  | ⟨.ptp (.initOpenCapture storageId format), r⟩ =>
    let r : Resp (.initOpenCapture storageId format) := r
    if m.opened = none then
      some ⟨m.transaction + 1, if r.rc = .ok then some m.transaction else none⟩
    else none
  | ⟨.ptp (.terminateOpenCapture capture), r⟩ =>
    let r : Resp (.terminateOpenCapture capture) := r
    if m.opened = some capture then
      some ⟨m.transaction + 1, if r.rc = .ok then none else m.opened⟩
    else none
  | ⟨.ptp _, _⟩ => some m.count
  | _ => some m

/-- The camera at the end of a history; there is none if it has refused something. -/
def run (m : CaptureState) (h : History) : Option CaptureState := h.foldlM step m

@[simp] theorem run_nil (m : CaptureState) : m.run [] = some m := rfl

theorem run_cons (m : CaptureState) (e : Event Op Op.Ret) (h : History) :
    m.run (e :: h) = (m.step e).bind fun m' => m'.run h := rfl

theorem run_append (m : CaptureState) (h h' : History) :
    m.run (h ++ h') = (m.run h).bind fun m' => m'.run h' := by
  rw [run, List.foldlM_append]
  rfl

end CaptureState

/-- Operations that neither open nor terminate a capture. -/
def Op.NoCapture : Op → Prop
  | .ptp (.initOpenCapture _ _) => False
  | .ptp (.terminateOpenCapture _) => False
  | _ => True

/-- The camera counts transactions as the runtime does, and the capture stays as it is. -/
structure KeepsCapture (s : PtpRuntime) (h : History) (s' : PtpRuntime) : Prop where
  noCapture : ∀ e ∈ h, e.1.NoCapture
  run : ∀ opened, (CaptureState.mk s.transaction opened).run h = some ⟨s'.transaction, opened⟩
  remoteVersion : s'.remoteVersion = s.remoteVersion
  openCaptureTransId : s'.openCaptureTransId = s.openCaptureTransId

instance : Composes KeepsCapture where
  nil s := ⟨by simp, fun _ => rfl, rfl, rfl⟩
  append hs hs' := ⟨fun e he => (List.mem_append.mp he).elim (hs.noCapture e) (hs'.noCapture e),
    fun opened => by
      rw [CaptureState.run_append, hs.run, Option.bind_some, hs'.run],
    hs'.remoteVersion.trans hs.remoteVersion,
    hs'.openCaptureTransId.trans hs.openCaptureTransId⟩

theorem keepsCapture_ask (s : PtpRuntime) (op : Op) (r : op.Ret) (hptp : ∀ c, op ≠ .ptp c) :
    KeepsCapture s [⟨op, r⟩] s := by
  have hop : op.NoCapture := by
    cases op with
    | ptp c => exact absurd rfl (hptp c)
    | _ => trivial
  refine ⟨by simpa using hop, fun opened => ?_, rfl, rfl⟩
  rw [CaptureState.run_cons]
  cases op with
  | ptp c => exact absurd rfl (hptp c)
  | _ => rfl

theorem keepsCapture_transact (s : PtpRuntime) (c : PtpCommand) (r : Resp c)
    (hc : Op.NoCapture (.ptp c)) : KeepsCapture s [⟨.ptp c, r⟩] (s.answered r.payload) := by
  refine ⟨by simpa using hc, fun opened => ?_, rfl, rfl⟩
  rw [CaptureState.run_cons]
  cases c <;> first | rfl | exact hc.elim

theorem Op.Polling.noCapture {c : PtpCommand} (h : Op.Polling (.ptp c)) :
    Op.NoCapture (.ptp c) := by
  cases c <;> trivial

instance : Transacts Op.NoCapture KeepsCapture where
  ask s op r _ hptp := keepsCapture_ask s op r hptp
  transact s c r hc := keepsCapture_transact s c r hc

instance : AppliesEvents KeepsCapture where
  ask s op r _ hptp := keepsCapture_ask s op r hptp
  transact s c r hc := keepsCapture_transact s c r hc.noCapture
  noteObject _ _ := ⟨by simp, fun _ => rfl, rfl, rfl⟩
  countItem _ _ := ⟨by simp, fun _ => rfl, rfl, rfl⟩
  apply _ _ := ⟨by simp, fun _ => rfl, rfl, rfl⟩

section Keep

theorem transactRc_keepsCapture {c : PtpCommand} (hc : Op.NoCapture (.ptp c)) :
    Obeys KeepsCapture (transactRc c) := obeys_transactRc hc

theorem fujiXappConfigGallery_keepsCapture : Obeys KeepsCapture fujiXappConfigGallery := by
  have hparse : Obeys KeepsCapture (ask .parsePropValue) :=
    obeys_ask (A := Op.NoCapture) trivial (by simp)
  refine obeys_andThen (transactRc_keepsCapture trivial) ?_
  refine obeys_bind hparse fun val => obeys_bind hparse fun version => ?_
  refine obeys_bind (obeys_modify fun s => ⟨by simp, fun _ => rfl, rfl, rfl⟩) fun _ => ?_
  repeat refine obeys_andThen (transactRc_keepsCapture trivial) ?_
  exact transactRc_keepsCapture trivial

theorem xappConfigLiveview_keepsCapture : Obeys KeepsCapture xappConfigLiveview := by
  have hparse : Obeys KeepsCapture (ask .parsePropValue) :=
    obeys_ask (A := Op.NoCapture) trivial (by simp)
  repeat refine obeys_andThen (transactRc_keepsCapture trivial) ?_
  exact obeys_bind hparse fun _ => transactRc_keepsCapture trivial

theorem resumeRemoteMode_keepsCapture : Obeys KeepsCapture resumeRemoteMode := by
  refine obeys_andThen (transactRc_keepsCapture trivial) (obeys_andThen fujiGetEvents_obeys ?_)
  repeat refine obeys_andThen (transactRc_keepsCapture trivial) ?_
  exact fujiGetEvents_obeys

theorem followCapture_keepsCapture : Obeys KeepsCapture followCapture := by
  have hask {op : Op} (hop : op.NoCapture) (hptp : ∀ c, op ≠ .ptp c) : Obeys KeepsCapture (ask op) :=
    obeys_ask hop hptp
  refine obeys_andThen fujiGetEvents_obeys (obeys_bind (hask trivial (by simp)) fun _ => ?_)
  refine obeys_bind obeys_get fun fuji => obeys_ite ?_ (obeys_pure _)
  refine obeys_andThen (hask trivial (by simp)) (obeys_andThen (hask trivial (by simp)) ?_)
  exact obeys_bind (obeys_modify fun s => ⟨by simp, fun _ => rfl, rfl, rfl⟩) fun _ => obeys_pure _

theorem fujiConfigImageGallery_keepsCapture : Obeys KeepsCapture fujiConfigImageGallery := by
  have hpoll : Obeys KeepsCapture fujiGetEvents := fujiGetEvents_obeys
  have hparse : Obeys KeepsCapture (ask .parsePropValue) :=
    obeys_ask (A := Op.NoCapture) trivial (by simp)
  have hversion : Obeys KeepsCapture configGalleryVersion := by
    refine obeys_andThen hpoll (obeys_bind (transactRc_keepsCapture trivial) fun rc => ?_)
    refine obeys_bind hparse fun version => ?_
    refine obeys_bind (obeys_modify fun s => ⟨by simp, fun _ => rfl, rfl, rfl⟩) fun _ => ?_
    exact obeys_ite (obeys_pure _) (transactRc_keepsCapture trivial)
  refine obeys_bind obeys_get fun fuji => obeys_ite (obeys_pure _) (obeys_ite ?_ (obeys_pure _))
  refine obeys_andThen hpoll (obeys_andThen (transactRc_keepsCapture trivial) ?_)
  refine obeys_andThen hpoll (obeys_andThen hpoll (obeys_bind obeys_get fun fuji => obeys_ite ?_ ?_))
  · refine obeys_andThen (transactRc_keepsCapture trivial) ?_
    exact obeys_andThen fujiXappConfigGallery_keepsCapture hpoll
  · exact obeys_andThen (transactRc_keepsCapture trivial) (obeys_andThen hversion hpoll)

end Keep

/-! ### Failures -/

/-- A refused read of a poll, or a socket that cannot be connected. -/
def Refused : Event Op Op.Ret → Prop
  | ⟨.ptp (.getPropValue code), r⟩ =>
    let r : Resp (.getPropValue code) := r
    r.rc ≠ .ok ∧ r.rc ≠ .checkCode
  | ⟨.ptp (.getObjectInfo handle), r⟩ =>
    let r : Resp (.getObjectInfo handle) := r
    r.rc ≠ .ok ∧ r.rc ≠ .checkCode
  | ⟨.ptp (.getObjectHandles id format inRoot), r⟩ =>
    let r : Resp (.getObjectHandles id format inRoot) := r
    r.rc ≠ .ok
  | ⟨.connectEvents _ _, rc⟩ => rc ≠ Rc.ok
  | ⟨.connectVideo _ _, rc⟩ => rc ≠ Rc.ok
  | _ => False

/-- `m` returns 0 unless an event is one of `F`. -/
def OkUnless (F : Event Op Op.Ret → Prop) (m : PtpM Rc) : Prop :=
  ∀ s h rc s', Exec m s h rc s' → (∀ e ∈ h, ¬ F e) → rc = .ok

section OkUnless

variable {α : Type} {F : Event Op Op.Ret → Prop} {m k : PtpM Rc}

theorem okUnless_pure : OkUnless F (pure .ok) := by
  rintro s _ _ _ ⟨⟩ -
  rfl

theorem okUnless_bind {m : PtpM α} {f : α → PtpM Rc} (hf : ∀ a, OkUnless F (f a)) :
    OkUnless F (m >>= f) := by
  intro s h rc s' hrun hF
  obtain ⟨h₁, a, s₁, h₂, rfl, -, hrun₂⟩ := exec_of_bind hrun
  exact hf a s₁ h₂ rc s' hrun₂ fun e he => hF e (List.mem_append_right _ he)

/-- The return code of `m` is handed on. -/
theorem okUnless_of_bind {f : Rc → PtpM Rc} (hm : OkUnless F m) (hf : OkUnless F (f .ok)) :
    OkUnless F (m >>= f) := by
  intro s h rc s' hrun hF
  obtain ⟨h₁, rc₁, s₁, h₂, rfl, hrun₁, hrun₂⟩ := exec_of_bind hrun
  obtain rfl := hm s h₁ rc₁ s₁ hrun₁ fun e he => hF e (List.mem_append_left _ he)
  exact hf s₁ h₂ rc s' hrun₂ fun e he => hF e (List.mem_append_right _ he)

theorem okUnless_andThen (hm : OkUnless F m) (hk : OkUnless F k) : OkUnless F (andThen m k) :=
  okUnless_of_bind hm hk

/-- A transaction: what follows returns 0, or the answer is one of `F`. -/
theorem okUnless_transact {c : PtpCommand} {f : Resp c → PtpM Rc}
    (hf : ∀ r, ¬ F ⟨.ptp c, r⟩ → OkUnless F (f r)) : OkUnless F (transact c >>= f) := by
  intro s h rc s' hrun hF
  obtain ⟨h₁, r, s₁, h₂, rfl, hrun₁, hrun₂⟩ := exec_of_bind hrun
  rcases hrun₁ with _ | ⟨r', ⟨⟩⟩
  exact hf _ (hF _ (by simp)) _ h₂ rc s' hrun₂ fun e he => hF e (List.mem_append_right _ he)

theorem okUnless_ite {c : Prop} [Decidable c] (hm : c → OkUnless F m) (hk : ¬ c → OkUnless F k) :
    OkUnless F (if c then m else k) := by
  by_cases hc : c
  · rw [if_pos hc]
    exact hm hc
  · rw [if_neg hc]
    exact hk hc

end OkUnless

theorem appQueueFileForDownload_ok (objectId : Int) :
    OkUnless Refused (appQueueFileForDownload objectId) := by
  refine okUnless_transact fun r hr => okUnless_bind fun _ => ?_
  refine okUnless_ite (fun _ => okUnless_pure) fun hcheck => ?_
  refine okUnless_ite (fun hrc => absurd ⟨hrc, hcheck⟩ hr) fun _ => ?_
  exact okUnless_bind fun s => okUnless_bind fun _ => okUnless_bind fun _ => okUnless_pure

theorem queueFreeSDRAMImages_ok (a : List UInt32) (i n : ℕ) :
    OkUnless Refused (queueFreeSDRAMImages a i n) := by
  induction n with
  | zero => exact okUnless_pure
  | succ n ih =>
    exact okUnless_bind fun handle => okUnless_of_bind (appQueueFileForDownload_ok _) ih

theorem onEvent_ok (i : ℕ) (code : UInt16) (value : UInt32) :
    OkUnless Refused (onEvent i code value) := by
  have hset {m : PtpM Unit} : OkUnless Refused (m >>= fun _ => pure .ok) :=
    okUnless_bind fun _ => okUnless_pure
  refine okUnless_ite (fun _ => hset) fun _ => okUnless_ite (fun _ => hset) fun _ => ?_
  refine okUnless_ite (fun _ => okUnless_bind fun _ => ?_) fun _ => ?_
  · refine okUnless_ite (fun _ => okUnless_bind fun _ => ?_) fun _ => okUnless_pure
    exact appQueueFileForDownload_ok 1
  · refine okUnless_ite (fun _ => okUnless_bind fun fuji => ?_) fun _ => okUnless_pure
    refine okUnless_ite (fun _ => ?_) fun _ => okUnless_pure
    refine okUnless_transact fun r hr => okUnless_ite (fun hrc => absurd hrc hr) fun _ => ?_
    exact queueFreeSDRAMImages_ok _ _ _

theorem eventLoop_ok (n i : ℕ) : OkUnless Refused (eventLoop n i) := by
  induction n generalizing i with
  | zero => exact okUnless_pure
  | succ n ih =>
    refine okUnless_bind fun length => okUnless_ite (fun _ => ?_) fun _ => okUnless_pure
    refine okUnless_bind fun code => okUnless_bind fun value => ?_
    exact okUnless_of_bind (onEvent_ok i code value) (ih (i + 1))

/-- A poll fails only where a read of it is refused. -/
theorem fujiGetEvents_ok : OkUnless Refused fujiGetEvents := by
  refine okUnless_bind fun _ => okUnless_transact fun r hr => ?_
  refine okUnless_ite (fun _ => okUnless_bind fun _ => okUnless_pure) fun hcheck => ?_
  refine okUnless_ite (fun hrc => absurd ⟨hrc, hcheck⟩ hr) fun _ => ?_
  refine okUnless_bind fun _ => okUnless_bind fun _ => okUnless_of_bind (eventLoop_ok 65536 0) ?_
  exact okUnless_bind fun _ => okUnless_pure

theorem followCapture_ok : OkUnless Refused followCapture := by
  refine okUnless_andThen fujiGetEvents_ok (okUnless_bind fun _ => okUnless_bind fun fuji => ?_)
  refine okUnless_ite (fun _ => okUnless_andThen ?_ (okUnless_andThen ?_ ?_)) fun _ => okUnless_pure
  · rintro s _ _ _ (_ | ⟨rc, ⟨⟩⟩) hF
    exact not_not.mp (hF _ (List.mem_singleton_self _))
  · rintro s _ _ _ (_ | ⟨rc, ⟨⟩⟩) hF
    exact not_not.mp (hF _ (List.mem_singleton_self _))
  · exact okUnless_bind fun _ => okUnless_pure

/-! ### Entering and leaving liveview -/

/-- An accepted InitiateOpenCapture. -/
def Opens : Event Op Op.Ret → Prop
  | ⟨.ptp (.initOpenCapture storageId format), r⟩ =>
    let r : Resp (.initOpenCapture storageId format) := r
    r.rc = .ok
  | _ => False

/-- An accepted TerminateOpenCapture. -/
def Terminates : Event Op Op.Ret → Prop
  | ⟨.ptp (.terminateOpenCapture capture), r⟩ =>
    let r : Resp (.terminateOpenCapture capture) := r
    r.rc = .ok
  | _ => False

theorem not_terminates_of_noCapture {e : Event Op Op.Ret} (he : e.1.NoCapture) :
    ¬ Terminates e := by
  obtain ⟨op, r⟩ := e
  cases op with
  | ptp c => cases c <;> first | exact id | exact he.elim
  | _ => exact id

/-- No step behind an accepted InitiateOpenCapture has failed. -/
def Uninterrupted (h : History) : Prop :=
  ∀ h₁ e h₂, h = h₁ ++ e :: h₂ → Opens e → ∀ e' ∈ h₂, ¬ Refused e'

/-- The camera as the runtime sees it. -/
def PtpRuntime.captures (s : PtpRuntime) (opened : Option UInt32) : CaptureState :=
  ⟨s.transaction, opened⟩

section Switch

variable {s s' s'' : PtpRuntime} {h h' : History} {rc : Rc}

theorem KeepsCapture.run_append (hkeep : KeepsCapture s h s') (opened : Option UInt32) :
    (s.captures opened).run (h ++ h') = (s'.captures opened).run h' := by
  rw [CaptureState.run_append, PtpRuntime.captures, hkeep.run, Option.bind_some]
  rfl

theorem Uninterrupted.tail (hun : Uninterrupted (h ++ h')) : Uninterrupted h' := by
  rintro h₁ e h₂ rfl
  exact hun (h ++ h₁) e h₂ (by simp)

/-- A capture is open behind the step that opens it, unless that step returns an error. -/
theorem openCapture_captures (hrun : Exec openCapture s h rc s') (hun : Uninterrupted h) :
    s'.remoteVersion = s.remoteVersion ∧ (s.captures none).run h
      = some (s'.captures (if rc = .ok then some s'.openCaptureTransId else none)) := by
  obtain ⟨h₁, _, s₁, h₂, rfl, hset, hrun₁⟩ := exec_of_bind hrun
  cases hset
  obtain ⟨h₃, rc₁, s₂, h₄, rfl, hinit, hrun₂⟩ := exec_of_bind hrun₁
  rcases hinit with _ | ⟨r, ⟨⟩⟩
  by_cases hrc : Resp.rc r = .ok
  -- accepted: the steps behind it succeed and leave the capture open
  · rw [if_neg (not_not.mpr hrc)] at hrun₂
    have hkeep := followCapture_keepsCapture _ h₄ rc s' hrun₂
    obtain rfl : rc = .ok := followCapture_ok _ h₄ rc s' hrun₂ (hun [] _ h₄ rfl hrc)
    refine ⟨hkeep.remoteVersion, ?_⟩
    rw [if_pos rfl, hkeep.openCaptureTransId]
    have hrest := hkeep.run (some s.transaction)
    rw [List.nil_append, CaptureState.run_append, CaptureState.run_cons]
    have hstep : (s.captures none).step ⟨.ptp (.initOpenCapture 0 0), r⟩
        = some ⟨s.transaction + 1, some s.transaction⟩ := by
      simp [CaptureState.step, PtpRuntime.captures, hrc]
    rw [hstep]
    exact hrest
  · rw [if_pos hrc] at hrun₂
    cases hrun₂
    refine ⟨rfl, ?_⟩
    rw [if_neg hrc, List.nil_append, List.append_nil, CaptureState.run_cons]
    simp [CaptureState.step, PtpRuntime.captures, hrc, PtpRuntime.answered]

/-- **Entering liveview**: when it succeeds on a camera with remote mode, a capture is open;
when it fails there is none. -/
theorem fujiConfigLiveview_captures (hrun : Exec fujiConfigLiveview s h rc s')
    (hun : Uninterrupted h) :
    s'.remoteVersion = s.remoteVersion ∧ (s.captures none).run h = some (s'.captures
      (if rc = .ok ∧ s.remoteVersion ≠ -1 then some s'.openCaptureTransId else none)) := by
  obtain ⟨h₁, _, s₁, h₂, rfl, hget, hrun₁⟩ := exec_of_bind hrun
  cases hget
  obtain ⟨h₃, rc₁, s₂, h₄, rfl, hxapp, hrun₂⟩ := exec_of_bind hrun₁
  have hkeep₁ : KeepsCapture s h₃ s₂ :=
    obeys_ite xappConfigLiveview_keepsCapture (obeys_pure _) s h₃ rc₁ s₂ hxapp
  rw [List.nil_append, hkeep₁.run_append, ← hkeep₁.remoteVersion]
  by_cases hrc₁ : rc₁ ≠ .ok
  · rw [if_pos hrc₁] at hrun₂
    cases hrun₂
    exact ⟨rfl, by rw [if_neg fun hcond => hrc₁ hcond.1]; rfl⟩
  rw [if_neg hrc₁] at hrun₂
  obtain ⟨h₅, _, s₃, h₆, rfl, hget, hrun₃⟩ := exec_of_bind hrun₂
  cases hget
  by_cases hversion : s₂.remoteVersion ≠ -1
  · rw [if_pos hversion] at hrun₃
    obtain ⟨h₇, rc₂, s₄, h₈, rfl, hresume, hrun₄⟩ := exec_of_bind hrun₃
    have hkeep₂ : KeepsCapture s₂ h₇ s₄ :=
      obeys_ite resumeRemoteMode_keepsCapture (obeys_pure _) s₂ h₇ rc₂ s₄ hresume
    rw [List.nil_append, hkeep₂.run_append, ← hkeep₂.remoteVersion]
    by_cases hrc₂ : rc₂ ≠ .ok
    · rw [if_pos hrc₂] at hrun₄
      cases hrun₄
      exact ⟨rfl, by rw [if_neg fun hcond => hrc₂ hcond.1]; rfl⟩
    · rw [if_neg hrc₂] at hrun₄
      obtain ⟨hversion', hcaptures⟩ := openCapture_captures hrun₄ hun.tail.tail.tail.tail
      refine ⟨hversion', ?_⟩
      rw [hcaptures, hkeep₂.remoteVersion]
      simp only [hversion, ne_eq, not_false_eq_true, and_true]
  · rw [if_neg hversion] at hrun₃
    cases hrun₃
    exact ⟨rfl, by rw [if_neg fun hcond => hversion hcond.2]; rfl⟩

/-- **Leaving liveview**: with an accepted TerminateOpenCapture the capture that was open is
closed. -/
theorem fujiEndLiveview_captures (hrun : Exec fujiEndLiveview s h rc s')
    (hterm : s.remoteVersion ≠ -1 → ∃ e ∈ h, Terminates e) :
    s'.remoteVersion = s.remoteVersion ∧
      (s.captures (if s.remoteVersion ≠ -1 then some s.openCaptureTransId else none)).run h
        = some (s'.captures none) := by
  obtain ⟨h₁, _, s₁, h₂, rfl, hget, hrun₁⟩ := exec_of_bind hrun
  cases hget
  by_cases hversion : s.remoteVersion = -1
  · rw [if_pos hversion] at hrun₁
    cases hrun₁
    exact ⟨rfl, by rw [if_neg (not_not.mpr hversion)]; rfl⟩
  · rw [if_neg hversion] at hrun₁
    rw [if_pos hversion]
    obtain ⟨h₃, rc₁, s₂, h₄, rfl, hpoll, hrun₂⟩ := exec_of_bind hrun₁
    have hkeep : KeepsCapture s h₃ s₂ := fujiGetEvents_obeys s h₃ rc₁ s₂ hpoll
    obtain ⟨e, he, hterm⟩ := hterm hversion
    have he' : e ∈ h₄ := by
      rcases List.mem_append.mp (show e ∈ h₃ ++ h₄ from he) with hpolled | hrest
      · exact absurd hterm (not_terminates_of_noCapture (hkeep.noCapture e hpolled))
      · exact hrest
    by_cases hrc₁ : rc₁ ≠ .ok
    · rw [if_pos hrc₁] at hrun₂
      cases hrun₂
      exact absurd he' List.not_mem_nil
    · rw [if_neg hrc₁] at hrun₂
      obtain ⟨h₅, _, s₃, h₆, rfl, hget, hrun₃⟩ := exec_of_bind hrun₂
      cases hget
      rcases hrun₃ with _ | ⟨r, ⟨⟩⟩
      obtain rfl := List.mem_singleton.mp he'
      have hrc : Resp.rc r = .ok := hterm
      refine ⟨hkeep.remoteVersion, ?_⟩
      rw [List.nil_append, hkeep.run_append, ← hkeep.openCaptureTransId, List.nil_append,
        CaptureState.run_cons]
      simp [CaptureState.step, PtpRuntime.captures, hrc, PtpRuntime.answered]

end Switch

end Fuji
