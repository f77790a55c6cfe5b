/-
What the functions on the runtime ask for.

`libfuji` leaves it to the module to close a runtime, to tell the frontend that a session has come
to its end, and to give it widgets: no function on the runtime does any of that
(`Op.OfRuntime`), whether it finishes or not.
-/
import LibFuji.DownloadMode
import LibFuji.FileContents
import LibFuji.Progress
import LibFuji.Setup
import LibFuji.Thumb
import LibFuji.Views

namespace Fuji

open Interaction Exif

/-- Operations that leave the runtime open, and the frontend's session and widgets alone. -/
def Op.OfRuntime : Op → Prop
  | .ptpClose => False
  | .fatalError _ => False
  | .setWidget _ _ => False
  | .btDeviceUpdate => False
  | _ => True

section OfRuntime

variable {fuel : ℕ} {clientName : List UInt8}

theorem fujiGetEvents_ofRuntime : Issues Op.OfRuntime fujiGetEvents :=
  fujiGetEvents_issues.mono fun op hop => by cases op <;> trivial

theorem transactRc_ofRuntime (c : PtpCommand) : Issues Op.OfRuntime (transactRc c) :=
  issues_transactRc trivial

theorem handshake_ofRuntime : Issues Op.OfRuntime (ptpipFujiConnectHandshake clientName) :=
  (handshake_confines clientName).issues.mono fun op hop => by cases op <;> trivial

/-! ### Liveview and the gallery -/

theorem fujiXappConfigGallery_ofRuntime : Issues Op.OfRuntime fujiXappConfigGallery := by
  refine issues_andThen (transactRc_ofRuntime _) (issues_bind (issues_ask trivial) fun _ => ?_)
  refine issues_bind (issues_ask trivial) fun _ => issues_bind (issues_modify _) fun _ => ?_
  have hstep (c : PtpCommand) {k : PtpM Rc} (hk : Issues Op.OfRuntime k) :
      Issues Op.OfRuntime (andThen (transactRc c) k) := issues_andThen (transactRc_ofRuntime c) hk
  exact hstep _ <| hstep _ <| hstep _ <| hstep _ <| hstep _ <| hstep _ <| hstep _ <| hstep _ <|
    hstep _ (transactRc_ofRuntime _)

theorem fujiEndLiveview_ofRuntime : Issues Op.OfRuntime fujiEndLiveview := by
  refine issues_bind issues_get fun _ => issues_ite (issues_pure _) ?_
  exact issues_andThen fujiGetEvents_ofRuntime <|
    issues_bind issues_get fun _ => transactRc_ofRuntime _

theorem fujiConfigLiveview_ofRuntime : Issues Op.OfRuntime fujiConfigLiveview := by
  have hxapp : Issues Op.OfRuntime xappConfigLiveview :=
    issues_andThen (transactRc_ofRuntime _) <| issues_andThen (transactRc_ofRuntime _) <|
      issues_andThen (transactRc_ofRuntime _) <| issues_bind (issues_ask trivial) fun _ =>
        transactRc_ofRuntime _
  have hresume : Issues Op.OfRuntime resumeRemoteMode :=
    issues_andThen (transactRc_ofRuntime _) <| issues_andThen fujiGetEvents_ofRuntime <|
      issues_andThen (transactRc_ofRuntime _) <| issues_andThen (transactRc_ofRuntime _) <|
      issues_andThen (transactRc_ofRuntime _) fujiGetEvents_ofRuntime
  have hsockets : Issues Op.OfRuntime connectLiveviewSockets := by
    refine issues_bind issues_get fun _ => issues_ite ?_ (issues_pure _)
    refine issues_andThen (issues_ask trivial) (issues_andThen (issues_ask trivial) ?_)
    exact issues_bind (issues_modify _) fun _ => issues_pure _
  have hcapture : Issues Op.OfRuntime openCapture :=
    issues_bind (issues_modify _) fun _ => issues_andThen (transactRc_ofRuntime _) <|
      issues_andThen fujiGetEvents_ofRuntime <| issues_bind (issues_ask trivial) fun _ => hsockets
  refine issues_bind issues_get fun _ =>
    issues_andThen (issues_ite hxapp (issues_pure _)) (issues_bind issues_get fun _ => ?_)
  exact issues_ite (issues_andThen (issues_ite hresume (issues_pure _)) hcapture) (issues_pure _)

theorem fujiConfigImageGallery_ofRuntime : Issues Op.OfRuntime fujiConfigImageGallery := by
  have hpoll := fujiGetEvents_ofRuntime
  have hversion : Issues Op.OfRuntime configGalleryVersion := by
    refine issues_andThen hpoll (issues_bind (transactRc_ofRuntime _) fun rc => ?_)
    refine issues_bind (issues_ask trivial) fun _ => issues_bind (issues_modify _) fun _ => ?_
    exact issues_ite (issues_pure _) (transactRc_ofRuntime _)
  refine issues_bind issues_get fun _ => issues_ite (issues_pure _) (issues_ite ?_ (issues_pure _))
  refine issues_andThen hpoll <| issues_andThen (transactRc_ofRuntime _) <| issues_andThen hpoll <|
    issues_andThen hpoll <| issues_bind issues_get fun _ => issues_ite ?_ ?_
  · exact issues_andThen (transactRc_ofRuntime _)
      (issues_andThen fujiXappConfigGallery_ofRuntime hpoll)
  · exact issues_andThen (transactRc_ofRuntime _) (issues_andThen hversion hpoll)

/-! ### Setup -/

theorem initConnection_ofRuntime : Issues Op.OfRuntime (initConnection clientName) := by
  have hcancel {m : PtpM (Rc × List UInt8)} (hm : Issues Op.OfRuntime m) : Issues Op.OfRuntime (do
      let cancelled : Bool ← ask .checkThreadCancel
      if cancelled = true then return (.canceled, []) else m) :=
    issues_bind (issues_ask trivial) fun _ => issues_ite (issues_pure _) hm
  refine issues_bind handshake_ofRuntime fun r => issues_ite (hcancel handshake_ofRuntime) ?_
  refine issues_ite (hcancel ?_) (issues_pure _)
  exact issues_bind (issues_ask trivial) fun _ => hcancel handshake_ofRuntime

theorem openSession_ofRuntime : Issues Op.OfRuntime openSession := by
  refine issues_bind (issues_modify _) fun _ => issues_bind issues_get fun _ => ?_
  refine issues_bind (transactRc_ofRuntime _) fun rc => issues_ite ?_ (issues_pure _)
  exact issues_bind (issues_ask trivial) fun _ => issues_ite (issues_pure _) (issues_pure _)

theorem waitForAccess_ofRuntime : Issues Op.OfRuntime (waitForAccess fuel) := by
  refine issues_andThen fujiGetEvents_ofRuntime ?_
  induction fuel with
  | zero => exact issues_hang
  | succ n ih =>
    refine issues_bind issues_get fun fuji => issues_ite ?_ (issues_pure _)
    exact issues_andThen fujiGetEvents_ofRuntime (issues_bind (issues_ask trivial) fun _ => ih)

theorem configureGallery_ofRuntime : Issues Op.OfRuntime configureGallery := by
  have hconfirm (code : ℕ) : Issues Op.OfRuntime (confirmVersion code) :=
    issues_andThen (transactRc_ofRuntime _) <| issues_bind (issues_ask trivial) fun _ =>
      transactRc_ofRuntime _
  have hversion : Issues Op.OfRuntime fujiConfigVersion := by
    refine issues_bind (issues_ask trivial) fun _ => issues_bind ?_ fun rc =>
      issues_bind (issues_ask trivial) fun _ => issues_pure _
    refine issues_bind issues_get fun _ => issues_ite (issues_pure _) ?_
    exact issues_ite (hconfirm _) (issues_ite (hconfirm _) (transactRc_ofRuntime _))
  have hname : Issues Op.OfRuntime readStorageName := by
    have hstore {c d : Prop} [Decidable c] [Decidable d] {f : Int32 → PtpRuntime → PtpRuntime}
        {g : PtpRuntime → PtpRuntime} {rc : Rc} : Issues Op.OfRuntime (if c then do
          let card : Int32 ← ask .parsePropValue
          modify (f card)
          return .ok
        else if d then do
          modify g
          return .ok
        else return rc : PtpM Rc) := by
      refine issues_ite ?_ (issues_ite ?_ (issues_pure _))
      · exact issues_bind (issues_ask trivial) fun _ => issues_bind (issues_modify _) fun _ =>
          issues_pure _
      · exact issues_bind (issues_modify _) fun _ => issues_pure _
    refine issues_bind (transactRc_ofRuntime _) fun rc => issues_ite ?_ ?_
    · exact issues_bind (issues_ask trivial) fun _ => hstore
    · exact issues_bind (issues_pure _) fun _ => hstore
  have htry : Issues Op.OfRuntime tryLiveview := by
    refine issues_bind issues_get fun _ => issues_ite ?_ (issues_pure _)
    exact issues_andThen fujiConfigLiveview_ofRuntime
      (issues_andThen fujiEndLiveview_ofRuntime fujiConfigImageGallery_ofRuntime)
  refine issues_bind issues_get fun _ => issues_ite (issues_pure _) ?_
  refine issues_andThen hversion (issues_bind issues_get fun _ => ?_)
  refine issues_andThen (issues_ite (transactRc_ofRuntime _) (issues_pure _)) ?_
  exact issues_andThen hname
    (issues_bind (issues_appUpdateStorageInfo fun _ _ => trivial) fun _ => htry)

theorem configure_ofRuntime : Issues Op.OfRuntime configure := by
  have hread (code : ℕ) (store : Int32 → PtpRuntime → PtpRuntime) :
      Issues Op.OfRuntime (readVersion code store) :=
    issues_andThen (transactRc_ofRuntime _) <| issues_bind (issues_ask trivial) fun _ =>
      issues_bind (issues_modify _) fun _ => issues_pure _
  have hmode : Issues Op.OfRuntime fujiConfigInitMode :=
    issues_bind issues_get fun _ => issues_andThen (transactRc_ofRuntime _) fujiGetEvents_ofRuntime
  refine issues_andThen (issues_andThen (hread _ _) <| issues_andThen (hread _ _) <|
    issues_andThen (hread _ _) (hread _ _)) ?_
  refine issues_andThen hmode (issues_bind issues_get fun _ => ?_)
  refine issues_ite ?_ configureGallery_ofRuntime
  exact issues_bind fujiXappConfigGallery_ofRuntime fun _ =>
    issues_ite (issues_pure _) configureGallery_ofRuntime

theorem fujiSetup_ofRuntime : Issues Op.OfRuntime (fujiSetup fuel clientName) := by
  have hsession : Issues Op.OfRuntime (setupSession fuel) := by
    refine issues_bind issues_get fun _ => issues_ite (issues_pure _) ?_
    exact issues_bind (issues_modify _) fun _ =>
      issues_andThen waitForAccess_ofRuntime configure_ofRuntime
  have hopen := issues_andThen openSession_ofRuntime hsession
  refine issues_bind initConnection_ofRuntime fun r => issues_ite (issues_pure _) ?_
  refine issues_bind (issues_ask trivial) fun _ => issues_bind issues_get fun _ => ?_
  exact issues_ite (issues_bind (issues_ask trivial) fun _ => hopen) hopen

theorem fujiusbSetup_ofRuntime : Issues Op.OfRuntime fujiusbSetup := by
  refine issues_bind (transactRc_ofRuntime _) fun rc => issues_ite (issues_pure _) ?_
  refine issues_bind (issues_transact trivial) fun r => issues_ite (issues_pure _) ?_
  refine issues_bind (issues_ask trivial) fun _ => issues_bind (transactRc_ofRuntime _) fun rc => ?_
  refine issues_ite (issues_bind (issues_modify _) fun _ => issues_pure _) ?_
  refine issues_ite (issues_pure _) (issues_bind (issues_ask trivial) fun _ => ?_)
  exact issues_bind (issues_modify _) fun _ => issues_pure _

theorem fujitetherSetup_ofRuntime : Issues Op.OfRuntime (fujitetherSetup clientName) := by
  have hretry (r : Rc × List UInt8) : Issues Op.OfRuntime (retryHandshake clientName r) :=
    issues_ite handshake_ofRuntime (issues_pure _)
  refine issues_bind issues_get fun _ => issues_ite ?_ fujiusbSetup_ofRuntime
  refine issues_bind handshake_ofRuntime fun r => issues_bind (hretry r) fun r => ?_
  refine issues_bind (hretry r) fun r => issues_bind (hretry r) fun r => ?_
  refine issues_ite (issues_pure _) (issues_bind (issues_ask trivial) fun _ => ?_)
  exact issues_bind (issues_ask trivial) fun _ => fujiusbSetup_ofRuntime

/-! ### Files -/

theorem exifHandler_ofRuntime (handle : Int) (op : ExifOp) (c : MyAddInfo) :
    Issues Op.OfRuntime (exifHandler handle op c) := by
  have hread (m : Memory) (of : ℕ) : Issues Op.OfRuntime (m.read of) := by
    rw [Memory.read]
    cases m of with
    | some b => exact issues_pure b
    | none => exact @issues_ask Op.OfRuntime (.unwritten of) trivial
  have hbytes (m : Memory) (of n : ℕ) : Issues Op.OfRuntime (m.readBytes of n) := by
    induction n with
    | zero => exact issues_pure _
    | succ n ih => exact issues_bind ih fun _ => issues_bind (hread m _) fun _ => issues_pure _
  cases op with
  | ensureSize length =>
    refine issues_ite (issues_bind ?_ fun more => ?_) (issues_pure _)
    · refine issues_bind (issues_transact trivial) fun r => ?_
      exact issues_ite (issues_pure _) (issues_pure _)
    · cases more with
      | none => exact issues_pure _
      | some buffer => exact issues_pure _
  | read field of n => exact issues_bind (hbytes c.buffer _ n) fun bytes => issues_pure _

theorem fujiGetThumb_ofRuntime (handle : Int) : Issues Op.OfRuntime (fujiGetThumb handle) := by
  have hpoll := fujiGetEvents_ofRuntime
  have hlocate : Issues Op.OfRuntime (locateThumb handle) := by
    refine issues_bind hpoll fun rc => issues_ite (issues_pure _) ?_
    refine issues_bind (issues_transact trivial) fun r => issues_ite (issues_pure _) ?_
    refine issues_ite (issues_pure _) (issues_bind issues_get fun s => issues_bind ?_ fun exif => ?_)
    · refine issues_interp (A := fun _ => True) (fun op c _ => exifHandler_ofRuntime handle op c) ?_
        fun _ _ _ _ => trivial
      rintro (length | ⟨field, of, n⟩)
      · exact ⟨false⟩
      · exact ⟨.replicate n 0⟩
    · exact issues_ite (issues_pure _) (issues_pure _)
  have hsettle : Issues Op.OfRuntime settle :=
    issues_bind hpoll fun _ => issues_ite (issues_pure _) <|
      issues_bind hpoll fun _ => issues_ite (issues_pure _) <|
      issues_bind hpoll fun _ => issues_ite (issues_pure _) hpoll
  have hexif : Issues Op.OfRuntime (ptpGetPartialExif handle) := by
    refine issues_bind (issues_ask trivial) fun _ => issues_bind hlocate fun r => issues_ite ?_ ?_
    · exact issues_bind (issues_ask trivial) fun _ => issues_pure _
    · exact issues_bind hsettle fun rc => issues_bind (issues_ask trivial) fun _ => issues_pure _
  have hthumb : Issues Op.OfRuntime (getThumbnail handle) := by
    refine issues_bind (issues_transact trivial) fun r => issues_ite (issues_pure _) ?_
    refine issues_ite (issues_pure _) (issues_bind issues_get fun _ => ?_)
    exact issues_ite (issues_pure _) (issues_pure _)
  refine issues_bind issues_get fun _ => issues_ite (issues_ite hexif (issues_pure _)) ?_
  refine issues_ite (issues_bind (issues_transact trivial) fun r => ?_) hthumb
  refine issues_ite (issues_pure _) (issues_ite (issues_pure _) ?_)
  exact issues_bind (issues_ask trivial) fun _ => hthumb

theorem appPtpDownloadFile_ofRuntime (oi : ObjectInfo) (objectId : Int) (max : UInt32) (index : Int) :
    Issues Op.OfRuntime (appPtpDownloadFile fuel oi objectId max index) := by
  have hend (read : UInt32) : Issues Op.OfRuntime (endDownload oi index read) :=
    issues_bind (issues_ask trivial) fun _ => issues_pure _
  have hloop (read : UInt32) :
      Issues Op.OfRuntime (appPtpDownloadLoop oi objectId max index fuel read) := by
    induction fuel generalizing read with
    | zero => exact issues_hang
    | succ fuel ih =>
      refine issues_bind (issues_ask trivial) fun _ => issues_bind (issues_transact trivial) fun r => ?_
      refine issues_ite (issues_bind (issues_ask trivial) fun _ => issues_pure _) ?_
      refine issues_bind issues_get fun s => issues_ite ?_ ?_
      · exact issues_bind (issues_ask trivial) fun _ => hend read
      · refine issues_bind (issues_ask trivial) fun _ => issues_bind (issues_ask trivial) fun _ => ?_
        exact issues_ite (hend _) (ih _)
  exact hloop 0

section Download

variable {A : Op → Prop}

theorem issues_openDownload (hpoll : ∀ op, op.Polling → A op)
    (hset : ∀ code value, A (.ptp (.setPropValue16 code value))) : Issues A openDownload := by
  refine issues_bind issues_get fun fuji => issues_ite ?_ (issues_ite ?_ (issues_pure _))
  · refine issues_bind (fujiGetEvents_issues.mono hpoll) fun rc => issues_ite (issues_pure _) ?_
    exact issues_bind (issues_transact (hset _ _)) fun _ => issues_pure _
  · exact issues_bind (issues_transact (hset _ _)) fun _ => issues_pure _

theorem issues_closeDownload (hpoll : ∀ op, op.Polling → A op)
    (hset : ∀ code value, A (.ptp (.setPropValue16 code value))) (rc : Rc) :
    Issues A (closeDownload rc) := by
  have hunlock (rc : Rc) : Issues A (do ptpMutexUnlock; return rc : PtpM Rc) :=
    issues_bind (issues_ask (hpoll _ trivial)) fun _ => issues_pure _
  refine issues_bind issues_get fun fuji => issues_ite ?_ (issues_ite ?_ (hunlock rc))
  · refine issues_bind (fujiGetEvents_issues.mono hpoll) fun rc => issues_ite (hunlock rc) ?_
    exact issues_bind (issues_transact (hset _ _)) fun r => hunlock r.rc
  · exact issues_bind (issues_transact (hset _ _)) fun _ => hunlock rc

/-- A download polls, writes properties, and downloads the object. -/
theorem issues_fujiDownloadFileEx (hpoll : ∀ op, op.Polling → A op)
    (hset : ∀ code value, A (.ptp (.setPropValue16 code value)))
    (hobject : ∀ op, op.Downloading → A op) (handle : Int) (info : Bool) :
    Issues A (fujiDownloadFileEx fuel handle info) := by
  refine issues_bind (issues_openDownload hpoll hset) fun rc => issues_ite (issues_pure _) ?_
  refine issues_bind (issues_ask (hpoll _ trivial)) fun _ => ?_
  refine issues_bind ((downloadObject_issues fuel handle info).mono hobject) fun exit => ?_
  cases exit with
  | cleanup rc => exact issues_closeDownload hpoll hset rc
  | leave rc => exact issues_pure rc

end Download

theorem fujiDownloadFileEx_ofRuntime (handle : Int) (info : Bool) :
    Issues Op.OfRuntime (fujiDownloadFileEx fuel handle info) :=
  issues_fujiDownloadFileEx (fun op hop => by cases op <;> trivial) (fun _ _ => trivial)
    (fun op hop => by cases op <;> trivial) handle info

end OfRuntime

end Fuji
