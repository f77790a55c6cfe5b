/-
The progress bar of a download (`module.c`).

`ptp_report_read_progress` is told the size of every read while a job has a progress bar, and
divides what has been read by the size of the file.  The bar is set up when a live file is
requested, and otherwise by `download_init`; it is dropped at the end of `on_request_file_contents`.
Reads may be reported at any time (`FileOp.notified`), and they count headers and other
transactions too.

`fileRun_shows`: over any sequence of requests, finished or not, nothing is divided by zero and all
percentages are in range, as long as the reads that are reported while a bar is up stay within the
size of the file.
-/
import LibFuji.FileContents
import LibFuji.Transport

namespace Fuji

open Interaction

/-! ### The code -/

/-- `struct ModulePriv` with the members of the progress bar. -/
structure FilesPriv extends ModulePriv where
  updateProgressBarJob : Int
  totalRead : UInt32
  toReadTarget : UInt32

/-- `struct PakFileHandle`. -/
structure FileHandle where
  storageName : Option String
  indexInView : Int

/-- The operations of the module where files are concerned. -/
inductive FileOp
  /-- an operation of the runtime, or the call of the callback `info` of a download -/
  | base (op : Op)
  /-- the sizes of the reads that are reported before the next operation -/
  | notified
  /-- `pak_rt_set_progress_bar` -/
  | setProgressBar (job percent : Int)
  | divideByZero

@[reducible] def FileOp.Ret : FileOp → Type
  | base op => op.Ret
  | notified => List UInt32
  | setProgressBar _ _ => Unit
  | divideByZero => Unit

/-- Programs of the module. -/
abbrev FileM : Type → Type := StateT FilesPriv (Prog FileOp FileOp.Ret)

/-- Histories of the module. -/
abbrev FileHistory : Type := List (Event FileOp FileOp.Ret)

/-- Ask the environment. -/
def askFile (op : FileOp) : FileM op.Ret := call op

/-- The percentage: it is computed in 64 bits, and cut to an `int`. -/
def percentOf (total target : UInt32) : Int := toCInt (total.toNat * 100 / target.toNat : ℕ)

/-- `ptp_report_read_progress`. -/
def ptpReportReadProgress (size : UInt32) : FileM Unit := do
  let priv ← get
  if priv.updateProgressBarJob ≠ 0 then
    modify fun priv => { priv with totalRead := priv.totalRead + size }
    if priv.toReadTarget = 0 then askFile .divideByZero
    else
      askFile (.setProgressBar priv.updateProgressBarJob
        (percentOf (priv.totalRead + size) priv.toReadTarget))
  else return ()

/-- Reads are reported one after the other. -/
def reportReads : List UInt32 → FileM Unit
  | [] => pure ()
  | size :: sizes => do
    ptpReportReadProgress size
    reportReads sizes

/-- What is read before the next operation is reported. -/
def notify : FileM Unit := do
  let sizes : List UInt32 ← askFile .notified
  reportReads sizes

/-- `download_init`. -/
def downloadInit (job : Int) (oi : ObjectInfo) : FileM Unit := do
  modify fun priv =>
    { priv with
      currentJob := job
      updateProgressBarJob := job
      toReadTarget := oi.compressedSize
      totalRead := 0 }
  askFile (.setProgressBar job 0)

/-- `download_add`. -/
def downloadAdd (file : FileHandle) (data : List UInt8) (size offset totalSize : UInt32) :
    FileM Int := do
  modify fun priv => { priv with toReadTarget := totalSize }
  let _ ← askFile (.base (.addFileContents file.indexInView (file.storageName.getD "") (some data)
    size.toNat offset totalSize))
  return 0

/-- The callbacks of a download, and all other operations, with the reads before them. -/
def answer (job : Int) (file : FileHandle) :
    Handler Op Op.Ret Unit FilesPriv FileOp FileOp.Ret
  | .downloadInfo oi, _ => do
    notify
    let _ ← askFile (.base (.downloadInfo oi))
    downloadInit job oi
    return ((), ())
  | .handleAdd data size offset totalSize, _ => do
    notify
    let rc : Int ← downloadAdd file data size offset totalSize
    return (rc, ())
  | op, _ => do
    notify
    let r : op.Ret ← askFile (.base op)
    return (r, ())

/-- A program of the module without the progress bar. -/
def onModule {α : Type} (job : Int) (file : FileHandle) (m : ModM α) : FileM α := do
  let priv ← get
  let out : α × ModulePriv ← (m priv.toModulePriv).interp (answer job file) ()
  modify fun priv => { priv with r := out.2.r, dev := out.2.dev }
  return out.1

/-- `on_request_file_contents` for the live storage. -/
def requestLive (fuel : ℕ) (job : Int) (file : FileHandle) (r : PtpRuntime) : FileM Rc := do
  modify fun priv =>
    { priv with
      currentJob := job
      updateProgressBarJob := job
      toReadTarget := r.currentDownloadingOi.compressedSize
      totalRead := 0 }
  let _ ← askFile (.setProgressBar job 0)
  onModule job file
    (withRuntime (appPtpDownloadFile fuel r.currentDownloadingOi 1 0x100000 file.indexInView))

/-- `on_request_file_contents` for a gallery. -/
def requestGallery (fuel : ℕ) (job : Int) (file : FileHandle) : FileM Rc := do
  let _ ← askFile (.setProgressBar job 0)
  onModule job file (withRuntime (fujiDownloadFileEx fuel (file.indexInView + 1) true))

/-- `on_request_file_contents` behind the download. -/
def endRequest (job : Int) (file : FileHandle) (rc : Rc) : FileM PakRc := do
  notify
  let _ ← askFile (.base (.addFileContents file.indexInView (file.storageName.getD "") none 0 0 0))
  modify fun priv => { priv with updateProgressBarJob := 0 }
  if rc ≠ .ok then onModule job file (handlePtperr rc "fuji_download_file") else return .ok

/-- `on_request_file_contents`. -/
def onRequestFileContents (fuel : ℕ) (job : Int) (file : FileHandle) : FileM PakRc := do
  let priv ← get
  match priv.r with
  | none => return .ok
  | some r =>
    if file.storageName = some liveStorageDeviceName then
      let rc ← requestLive fuel job file r
      endRequest job file rc
    else
      let rc ← requestGallery fuel job file
      endRequest job file rc

/-! ### What the bar shows -/

/-- The reads that an event reports. -/
def notifiedOf : Event FileOp FileOp.Ret → List UInt32
  | ⟨.notified, sizes⟩ => sizes
  | _ => []

/-- The reads that have been reported. -/
def notified (h : FileHistory) : List UInt32 := h.flatMap notifiedOf

/-- Nothing is divided by zero, and percentages are in range. -/
def Shows : Event FileOp FileOp.Ret → Prop
  | ⟨.setProgressBar _ percent, _⟩ => 0 ≤ percent ∧ percent ≤ 100
  | ⟨.divideByZero, _⟩ => False
  | _ => True

instance : DecidablePred Shows
  | ⟨.setProgressBar _ percent, _⟩ => inferInstanceAs (Decidable (0 ≤ percent ∧ percent ≤ 100))
  | ⟨.divideByZero, _⟩ => .isFalse id
  | ⟨.base _, _⟩ | ⟨.notified, _⟩ => .isTrue trivial

/-- With every read that is reported, what has been read stays within the size of the file, up to
the percent that is rounded off.  The sum is that of the code, in 32 bits. -/
def WithinSize (size : UInt32) (h : FileHistory) : Prop :=
  ∀ reads, reads <+: notified h → reads ≠ [] → 100 * reads.sum.toNat < 101 * size.toNat

/-- The reads of a request, from the moment its bar is set up, stay within the size. -/
def RequestFits (priv : FilesPriv) (job : Int) (file : FileHandle) (h : FileHistory) : Prop :=
  job ≠ 0 →
    if file.storageName = some liveStorageDeviceName then
      ∀ r, priv.r = some r → WithinSize r.currentDownloadingOi.compressedSize h
    else
      ∀ h₁ oi h₂, h = h₁ ++ ⟨.base (.downloadInfo oi), ()⟩ :: h₂ → WithinSize oi.compressedSize h₂

/-- What has happened from a state on, in requests that all meet a condition: requests that have
returned, one that has not, reads that are reported in between, and whatever else the module does. -/
inductive FileRun (C : FilesPriv → Int → FileHandle → FileHistory → Prop) :
    FilesPriv → FileHistory → Prop
  | nil (priv : FilesPriv) : FileRun C priv []
  | request {fuel : ℕ} {job : Int} {file : FileHandle} {priv priv' : FilesPriv}
      {h h' : FileHistory} {pak : PakRc}
      (hrun : Exec (onRequestFileContents fuel job file) priv h pak priv')
      (hcond : C priv job file h) (hrest : FileRun C priv' h') : FileRun C priv (h ++ h')
  | unfinished {fuel : ℕ} {job : Int} {file : FileHandle} {priv : FilesPriv} {h : FileHistory}
      (hreach : Reaches (onRequestFileContents fuel job file) priv h)
      (hcond : C priv job file h) : FileRun C priv h
  | notify {size : UInt32} {priv priv' : FilesPriv} {h h' : FileHistory}
      (hrun : Exec (ptpReportReadProgress size) priv h () priv') (hrest : FileRun C priv' h') :
      FileRun C priv (h ++ h')
  | other {priv : FilesPriv} {mod : ModulePriv} {h : FileHistory}
      (hrest : FileRun C { priv with toModulePriv := mod } h) : FileRun C priv h

/-- The module behind `init`. -/
def filesInit : FilesPriv where
  toModulePriv := idleModule
  updateProgressBarJob := 0
  totalRead := 0
  toReadTarget := 0

/-! ### The bar between two operations -/

section Bar

variable {h t : FileHistory} {e : Event FileOp FileOp.Ret} {size : UInt32}

theorem notified_append : notified (h ++ t) = notified h ++ notified t := List.flatMap_append

theorem WithinSize.of_append (hwithin : WithinSize size (h ++ t)) : WithinSize size h := by
  intro reads hreads
  refine hwithin reads (hreads.trans ?_)
  rw [notified_append]
  exact List.prefix_append ..

theorem RequestFits.of_append {priv : FilesPriv} {job : Int} {file : FileHandle}
    (hfits : RequestFits priv job file (h ++ t)) : RequestFits priv job file h := by
  intro hjob
  have hfits := hfits hjob
  split_ifs at hfits ⊢ with hlive
  · exact fun r hr => (hfits r hr).of_append
  · rintro h₁ oi h₂ rfl
    exact (hfits h₁ oi (h₂ ++ t) (by simp)).of_append

/-- A percentage is in range as long as what has been read stays within the size. -/
theorem percentOf_within {total target : UInt32} (hlt : 100 * total.toNat < 101 * target.toNat) :
    0 ≤ percentOf total target ∧ percentOf total target ≤ 100 := by
  have hpercent : total.toNat * 100 / target.toNat ≤ 100 :=
    Nat.lt_succ_iff.mp ((Nat.div_lt_iff_lt_mul (by omega)).mpr (by omega))
  rw [percentOf, toCInt]
  generalize total.toNat * 100 / target.toNat = percent at hpercent
  have hcut : (percent : Int).bmod (2 ^ 32) = percent := Int.bmod_eq_of_le (by omega) (by omega)
  rw [hcut]
  omega

/-- As long as a condition holds, what the bar shows is in range. -/
def Shown (fits : FileHistory → Prop) (h : FileHistory) : Prop := fits h → ∀ e ∈ h, Shows e

/-- The bar, with the reads that are still to be reported: it is down, or it is up for a file of a
size, and the total is that of the reads reported from some time on, from which they have to stay
within the size. -/
def Bar (fits : FileHistory → Prop) : Option UInt32 → List UInt32 → FileHistory → FilesPriv → Prop
  | none, _, h, priv => Shown fits h ∧ priv.updateProgressBarJob = 0
  | some size, pending, h, priv =>
    Shown fits h ∧ priv.updateProgressBarJob ≠ 0 ∧ priv.toReadTarget = size ∧
      ∃ h₀ t reads, h = h₀ ++ t ∧ (∀ t, fits (h₀ ++ t) → WithinSize size t) ∧
        notified t = reads ++ pending ∧ priv.totalRead = reads.sum

variable {fits : FileHistory → Prop} {bar : Option UInt32} {pending : List UInt32}
  {priv : FilesPriv}

theorem Bar.shown (hbar : Bar fits bar pending h priv) : Shown fits h := by
  cases bar with
  | none => exact hbar.1
  | some size => exact hbar.1

theorem Shown.snoc (hshown : Shown fits h) (hfits : ∀ h t, fits (h ++ t) → fits h)
    (he : fits (h ++ [e]) → Shows e) : Shown fits (h ++ [e]) := by
  intro hall e' he'
  rcases List.mem_append.mp he' with he' | he'
  · exact hshown (hfits _ _ hall) e' he'
  · rw [List.mem_singleton.mp he']
    exact he hall

/-- An operation that reports nothing, and shows nothing wrong. -/
theorem Bar.snoc (hbar : Bar fits bar pending h priv) (hfits : ∀ h t, fits (h ++ t) → fits h)
    (hnone : notified [e] = []) (he : Shows e) : Bar fits bar pending (h ++ [e]) priv := by
  have hshown := hbar.shown.snoc hfits fun _ => he
  cases bar with
  | none => exact ⟨hshown, hbar.2⟩
  | some size =>
    obtain ⟨-, hjob, htarget, h₀, t, reads, rfl, hwithin, hreads, htotal⟩ := hbar
    refine ⟨hshown, hjob, htarget, h₀, t ++ [e], reads, by simp, hwithin, ?_, htotal⟩
    rw [notified_append, hreads, hnone, List.append_nil]

/-! ### Reports -/

/-- **A report keeps the bar**: with reads within the size, the percentage is in range. -/
theorem ptpReportReadProgress_keeps {read : UInt32} (hfits : ∀ h t, fits (h ++ t) → fits h)
    (hbar : Bar fits bar (read :: pending) h priv) :
    Always (Shown fits) (ptpReportReadProgress read) (fun h' _ priv' => Bar fits bar pending h' priv')
      h priv := by
  refine always_get_bind.mpr (always_ite (fun hjob => ?_) fun hjob => always_pure hbar.shown ?_)
  · cases bar with
    | none => exact absurd hbar.2 hjob
    | some size =>
      have hshown := hbar.shown
      obtain ⟨-, -, rfl, h₀, t, reads, rfl, hwithin, hreads, htotal⟩ := hbar
      have hsum : priv.totalRead + read = (reads ++ [read]).sum := by
        rw [List.sum_append, List.sum_singleton, htotal]
      have hlt (hall : fits (h₀ ++ t)) :
          100 * (priv.totalRead + read).toNat < 101 * priv.toReadTarget.toNat := by
        rw [hsum]
        exact hwithin t hall _ (hreads ▸ ⟨pending, by simp⟩) (by simp)
      -- behind an operation that shows the bar, the read has been reported
      have hnext {e : Event FileOp FileOp.Ret} (hnone : notified [e] = [])
          (he : fits (h₀ ++ t) → Shows e) :
          Shown fits (h₀ ++ t ++ [e]) ∧ Bar fits (some priv.toReadTarget) pending (h₀ ++ t ++ [e])
            { priv with totalRead := priv.totalRead + read } := by
        have hshown' := hshown.snoc hfits fun hall => he (hfits _ _ hall)
        refine ⟨hshown', hshown', hjob, rfl, h₀, t ++ [e], reads ++ [read], by simp, hwithin, ?_, hsum⟩
        rw [notified_append, hreads, hnone]
        simp
      refine always_modify_bind.mpr (always_ite (fun hzero => ?_) fun _ => ?_)
      · refine always_call hshown fun _ => hnext rfl fun hall => ?_
        have hpos := hlt hall
        rw [hzero] at hpos
        exact absurd hpos (by simp)
      · exact always_call hshown fun _ => hnext rfl fun hall => percentOf_within (hlt hall)
  · cases bar with
    | none => exact hbar
    | some size => exact absurd hbar.2.1 hjob

theorem reportReads_keeps (hfits : ∀ h t, fits (h ++ t) → fits h)
    (hbar : Bar fits bar pending h priv) :
    Always (Shown fits) (reportReads pending) (fun h' _ priv' => Bar fits bar [] h' priv') h priv := by
  induction pending generalizing h priv with
  | nil => exact always_pure hbar.shown hbar
  | cons read pending ih =>
    exact always_bind (ptpReportReadProgress_keeps hfits hbar) fun h' _ priv' hbar' => ih hbar'

theorem notify_keeps (hfits : ∀ h t, fits (h ++ t) → fits h) (hbar : Bar fits bar [] h priv) :
    Always (Shown fits) notify (fun h' _ priv' => Bar fits bar [] h' priv') h priv := by
  have hread (sizes : List UInt32) : Bar fits bar sizes (h ++ [⟨.notified, sizes⟩]) priv := by
    have hshown : Shown fits (h ++ [⟨.notified, sizes⟩]) := hbar.shown.snoc hfits fun _ => trivial
    cases bar with
    | none => exact ⟨hshown, hbar.2⟩
    | some size =>
      obtain ⟨-, hjob, htarget, h₀, t, reads, rfl, hwithin, hreads, htotal⟩ := hbar
      refine ⟨hshown, hjob, htarget, h₀, t ++ [⟨.notified, sizes⟩], reads, by simp, hwithin, ?_, htotal⟩
      rw [notified_append, hreads, List.append_nil]
      exact congrArg (reads ++ ·) (List.append_nil sizes)
  exact always_call_bind hbar.shown fun sizes => reportReads_keeps hfits (hread sizes)

/-! ### Requests -/

/-- Operations that leave the bar to a file alone. -/
def Op.LeavesBar (bar : Option UInt32) : Op → Prop
  | .downloadInfo _ => False
  | .handleAdd _ _ _ total => ∀ size ∈ bar, total = size
  | _ => True

variable {job : Int} {file : FileHandle}

/-- **An operation keeps the bar**, with the reads before it. -/
theorem answer_keeps (hfits : ∀ h t, fits (h ++ t) → fits h) {op : Op} (hop : op.LeavesBar bar)
    (hbar : Bar fits bar [] h priv) :
    Always (Shown fits) (answer job file op ()) (fun h' _ priv' => Bar fits bar [] h' priv')
      h priv := by
  have hother (op : Op) : Always (Shown fits)
      (do notify; let r : op.Ret ← askFile (.base op); return (r, ()))
      (fun h' _ priv' => Bar fits bar [] h' priv') h priv := by
    refine always_bind (notify_keeps hfits hbar) fun h' _ priv' hbar' => ?_
    refine always_call_bind hbar'.shown fun r => ?_
    have hnext := hbar'.snoc (e := ⟨.base op, r⟩) hfits rfl trivial
    exact always_pure hnext.shown hnext
  cases op with
  | downloadInfo oi => exact hop.elim
  | handleAdd data size offset total =>
    refine always_bind (notify_keeps hfits hbar) fun h' _ priv' hbar' => ?_
    have htarget : Bar fits bar [] h' { priv' with toReadTarget := total } := by
      cases bar with
      | none => exact hbar'
      | some size => exact ⟨hbar'.1, hbar'.2.1, hop size rfl, hbar'.2.2.2⟩
    refine always_bind (Q := fun h' _ priv' => Bar fits bar [] h' priv') ?_ fun h' rc priv' hbar' =>
      always_pure hbar'.shown hbar'
    refine always_modify_bind.mpr (always_call_bind hbar'.shown fun r => ?_)
    have hnext := htarget.snoc (e := ⟨.base (.addFileContents file.indexInView
      (file.storageName.getD "") (some data) size.toNat offset total), r⟩) hfits rfl trivial
    exact always_pure hnext.shown hnext
  | _ => exact hother _

theorem interp_keeps (hfits : ∀ h t, fits (h ++ t) → fits h) {σ α : Type}
    {m : StateT σ (Prog Op Op.Ret) α} (hm : Issues (Op.LeavesBar bar) m) (s : σ)
    (hbar : Bar fits bar [] h priv) :
    Always (Shown fits) ((m s).interp (answer job file) ())
      (fun h' _ priv' => Bar fits bar [] h' priv') h priv :=
  always_interp (f := answer job file) (A := Op.LeavesBar bar) (J := Bar fits bar [])
    (fun _ _ => Bar.shown) (fun _ _ _ _ hop => answer_keeps hfits hop)
    (fun op => ⟨accessPoint op⟩) (hm s) hbar

theorem withRuntime_issues {A : Op → Prop} {α : Type} {m : PtpM α} (hm : Issues A m) :
    Issues A (withRuntime m) := by
  intro mod h hreach e he
  rw [Reaches, withRuntime] at hreach
  split at hreach
  · rcases Prog.Reaches.of_bind hreach with hreach | ⟨h₁, out, h₂, rfl, hrun, hret⟩
    · exact hm _ h hreach e he
    · cases hret
      rw [List.append_nil] at he
      exact hm _ h₁ hrun.reaches e he
  · cases hreach
    exact absurd he (by simp)

/-- Somewhere a bar is up, or it is down. -/
def SomeBar (fits : FileHistory → Prop) (h : FileHistory) (priv : FilesPriv) : Prop :=
  ∃ bar, Bar fits bar [] h priv

theorem onModule_keeps {α : Type} {m : ModM α} {mod : ModulePriv} (hmod : priv.toModulePriv = mod)
    (hm : Always (Shown fits) ((m mod).interp (answer job file) ())
      (fun h' _ priv' => SomeBar fits h' priv') h priv) :
    Always (Shown fits) (onModule job file m) (fun h' _ priv' => SomeBar fits h' priv') h priv := by
  subst hmod
  refine always_get_bind.mpr (always_bind hm fun h' out priv' ⟨bar, hbar⟩ => ?_)
  refine always_modify_bind.mpr (always_pure hbar.shown ⟨bar, ?_⟩)
  cases bar with
  | none => exact hbar
  | some size => exact hbar

theorem appPtpDownloadFile_issues (fuel : ℕ) (oi : ObjectInfo) (objectId : Int)
    (maxChunkSize : UInt32) (index : Int) :
    Issues (Op.LeavesBar bar) (appPtpDownloadFile fuel oi objectId maxChunkSize index) := by
  have hend (read : UInt32) : Issues (Op.LeavesBar bar) (endDownload oi index read) :=
    issues_bind (issues_ask trivial) fun _ => issues_pure _
  have hloop (read : UInt32) :
      Issues (Op.LeavesBar bar) (appPtpDownloadLoop oi objectId maxChunkSize index fuel read) := by
    induction fuel generalizing read with
    | zero => exact issues_hang
    | succ fuel ih =>
      refine issues_bind (issues_ask trivial) fun _ => ?_
      refine issues_bind (issues_transact trivial) fun r => ?_
      refine issues_ite (issues_bind (issues_ask trivial) fun _ => issues_pure _) ?_
      refine issues_bind issues_get fun s => issues_ite ?_ ?_
      · exact issues_bind (issues_ask trivial) fun _ => hend read
      · refine issues_bind (issues_ask trivial) fun _ => ?_
        refine issues_bind (issues_ask trivial) fun _ => ?_
        exact issues_ite (hend _) (ih _)
  exact hloop 0

theorem Op.Polling.leavesBar {op : Op} (hop : op.Polling) : op.LeavesBar bar := by
  cases op <;> trivial

theorem openDownload_issues : Issues (Op.LeavesBar bar) openDownload := by
  have hevents : Issues (Op.LeavesBar bar) fujiGetEvents :=
    fujiGetEvents_issues.mono fun _ => Op.Polling.leavesBar
  refine issues_bind issues_get fun fuji => issues_ite ?_ (issues_ite ?_ (issues_pure _))
  · refine issues_bind hevents fun rc => issues_ite (issues_pure _) ?_
    exact issues_bind (issues_transact trivial) fun _ => issues_pure _
  · exact issues_bind (issues_transact trivial) fun _ => issues_pure _

theorem closeDownload_issues (rc : Rc) : Issues (Op.LeavesBar bar) (closeDownload rc) := by
  have hevents : Issues (Op.LeavesBar bar) fujiGetEvents :=
    fujiGetEvents_issues.mono fun _ => Op.Polling.leavesBar
  have hunlock (rc : Rc) : Issues (Op.LeavesBar bar) (do ptpMutexUnlock; return rc : PtpM Rc) :=
    issues_bind (issues_ask trivial) fun _ => issues_pure _
  refine issues_bind issues_get fun fuji => issues_ite ?_ (issues_ite ?_ (hunlock rc))
  · refine issues_bind hevents fun rc => issues_ite (hunlock rc) ?_
    exact issues_bind (issues_transact trivial) fun r => hunlock r.rc
  · exact issues_bind (issues_transact trivial) fun _ => hunlock rc

/-- The chunks of a download come with the size of its object. -/
theorem downloadLoop_leavesBar {oi : ObjectInfo} (hbar : ∀ size ∈ bar, oi.compressedSize = size)
    (handle : Int) (fuel : ℕ) (read : UInt32) :
    Issues (Op.LeavesBar bar) (downloadLoop handle oi fuel read) := by
  induction fuel generalizing read with
  | zero => exact issues_hang
  | succ fuel ih =>
    refine issues_bind (issues_ask trivial) fun cancelled => issues_ite (issues_pure _) ?_
    refine issues_bind (issues_transact trivial) fun r => issues_ite (issues_pure _) ?_
    refine issues_ite (issues_bind (issues_ask trivial) fun _ => issues_pure _) ?_
    refine issues_bind issues_get fun s => issues_bind (issues_ask trivial) fun _ => ?_
    refine issues_ite (issues_pure _) (issues_bind (issues_ask hbar) fun rc => ?_)
    exact issues_ite (issues_pure _) (issues_ite (issues_pure _) (ih _))

/-- The bar of a job for a file of a size: there is none without a job. -/
def barOf (job : Int) (size : UInt32) : Option UInt32 := if job = 0 then none else some size

/-- A bar is set up. -/
theorem Shown.bar_up {size : UInt32} (hshown : Shown fits h) (hfits : ∀ h t, fits (h ++ t) → fits h)
    (hsize : job ≠ 0 → ∀ t, fits (h ++ t) → WithinSize size t)
    (hjob : priv.updateProgressBarJob = job) (htarget : priv.toReadTarget = size)
    (htotal : priv.totalRead = 0) :
    Bar fits (barOf job size) [] (h ++ [⟨.setProgressBar job 0, ()⟩]) priv := by
  have hnext : Shown fits (h ++ [⟨.setProgressBar job 0, ()⟩]) :=
    hshown.snoc hfits fun _ => ⟨le_rfl, by decide⟩
  rw [barOf]
  split_ifs with hnone
  · exact ⟨hnext, hjob.trans hnone⟩
  · exact ⟨hnext, hjob ▸ hnone, htarget, h, _, [], rfl, hsize hnone, rfl, htotal⟩

/-- The callback `info` sets up the bar. -/
theorem downloadInfo_keeps {oi : ObjectInfo} (hfits : ∀ h t, fits (h ++ t) → fits h)
    (hsize : job ≠ 0 → ∀ h₁ h₂, fits (h₁ ++ ⟨.base (.downloadInfo oi), ()⟩ :: h₂) →
      WithinSize oi.compressedSize h₂)
    (hbar : Bar fits none [] h priv) :
    Always (Shown fits) (answer job file (.downloadInfo oi) ())
      (fun h' _ priv' => Bar fits (barOf job oi.compressedSize) [] h' priv') h priv := by
  refine always_bind (notify_keeps hfits hbar) fun h' _ priv' hbar' => ?_
  refine always_call_bind hbar'.shown fun r => ?_
  have htold := (hbar'.snoc (e := ⟨.base (.downloadInfo oi), r⟩) hfits rfl trivial).shown
  refine always_bind (Q := fun h' _ priv' => Bar fits (barOf job oi.compressedSize) [] h' priv') ?_
    fun h' _ priv' hbar' => always_pure hbar'.shown hbar'
  refine always_modify_bind.mpr (always_call htold fun _ => ?_)
  have hup : Bar fits (barOf job oi.compressedSize) []
      (h' ++ [⟨.base (.downloadInfo oi), r⟩] ++ [⟨.setProgressBar job 0, ()⟩])
      { priv' with
        currentJob := job
        updateProgressBarJob := job
        toReadTarget := oi.compressedSize
        totalRead := 0 } :=
    htold.bar_up hfits (fun hjob t hall => hsize hjob h' t (by simpa using hall)) rfl rfl rfl
  exact ⟨hup.shown, hup⟩

theorem downloadObject_keeps {handle : Int} {fuel : ℕ} (hfits : ∀ h t, fits (h ++ t) → fits h)
    (hsize : job ≠ 0 → ∀ h₁ oi h₂, fits (h₁ ++ ⟨.base (.downloadInfo oi), ()⟩ :: h₂) →
      WithinSize oi.compressedSize h₂)
    (s : PtpRuntime) (hbar : Bar fits none [] h priv) :
    Always (Shown fits) ((downloadObject fuel handle true s).interp (answer job file) ())
      (fun h' _ priv' => SomeBar fits h' priv') h priv := by
  refine always_interp_bind (interp_keeps hfits (issues_transact trivial) s hbar)
    fun h' r s' priv' hbar' => ?_
  by_cases hr : r.rc ≠ .ok
  · rw [if_pos hr]
    exact always_pure hbar'.shown ⟨none, hbar'⟩
  rw [if_neg hr]
  refine always_interp_bind (interp_keeps (m := ask (.updateObjectInfo handle r.out)) hfits
    (issues_ask trivial) s' hbar')
    fun h' _ s' priv' hbar' => ?_
  rw [if_pos rfl]
  refine always_interp_bind (Q := fun h' _ priv' => Bar fits (barOf job r.out.compressedSize) [] h' priv')
    ?_ fun h' _ s' priv' hbar' => ?_
  · refine always_bind (downloadInfo_keeps hfits (fun hjob h₁ => hsize hjob h₁ r.out) hbar')
      fun h' _ priv' hbar' => always_pure hbar'.shown hbar'
  · refine (interp_keeps hfits (downloadLoop_leavesBar ?_ handle fuel 0) s' hbar').mono
      fun _ _ _ hbar' => ⟨_, hbar'⟩
    intro size hmem
    rw [barOf] at hmem
    split_ifs at hmem with hjob
    · simp at hmem
    · exact Option.some.inj hmem

theorem fujiDownloadFileEx_keeps {handle : Int} {fuel : ℕ} (hfits : ∀ h t, fits (h ++ t) → fits h)
    (hsize : job ≠ 0 → ∀ h₁ oi h₂, fits (h₁ ++ ⟨.base (.downloadInfo oi), ()⟩ :: h₂) →
      WithinSize oi.compressedSize h₂)
    (s : PtpRuntime) (hbar : Bar fits none [] h priv) :
    Always (Shown fits) ((fujiDownloadFileEx fuel handle true s).interp (answer job file) ())
      (fun h' _ priv' => SomeBar fits h' priv') h priv := by
  refine always_interp_bind (interp_keeps hfits openDownload_issues s hbar)
    fun h' rc s' priv' hbar' => ?_
  by_cases hrc : rc ≠ .ok
  · rw [if_pos hrc]
    exact always_pure hbar'.shown ⟨none, hbar'⟩
  rw [if_neg hrc]
  refine always_interp_bind (interp_keeps (m := ptpMutexLock) hfits (issues_ask trivial) s' hbar')
    fun h' _ s' priv' hbar' => ?_
  refine always_interp_bind (downloadObject_keeps hfits hsize s' hbar') ?_
  rintro h' (rc | rc) s' priv' ⟨bar, hbar'⟩
  · exact (interp_keeps hfits (closeDownload_issues rc) s' hbar').mono fun _ _ _ hbar' => ⟨bar, hbar'⟩
  · exact always_pure hbar'.shown ⟨bar, hbar'⟩

theorem requestGallery_keeps {fuel : ℕ} (hfits : ∀ h t, fits (h ++ t) → fits h)
    (hsize : job ≠ 0 → ∀ h₁ oi h₂, fits (h₁ ++ ⟨.base (.downloadInfo oi), ()⟩ :: h₂) →
      WithinSize oi.compressedSize h₂)
    (hbar : Bar fits none [] h priv) :
    Always (Shown fits) (requestGallery fuel job file) (fun h' _ priv' => SomeBar fits h' priv')
      h priv := by
  refine always_call_bind hbar.shown fun u => ?_
  have hnext := hbar.snoc (e := ⟨.setProgressBar job 0, u⟩) hfits rfl ⟨le_rfl, by decide⟩
  refine onModule_keeps rfl ?_
  rw [withRuntime]
  split
  · rw [interp_bind]
    refine always_bind (fujiDownloadFileEx_keeps hfits hsize _ hnext) fun h' _ priv' hdown => ?_
    obtain ⟨bar, hbar'⟩ := hdown
    exact always_pure hbar'.shown ⟨bar, hbar'⟩
  · exact always_hang hnext.shown

theorem requestLive_keeps {fuel : ℕ} {r : PtpRuntime} (hfits : ∀ h t, fits (h ++ t) → fits h)
    (hsize : job ≠ 0 → ∀ t, fits (h ++ t) → WithinSize r.currentDownloadingOi.compressedSize t)
    (hshown : Shown fits h) :
    Always (Shown fits) (requestLive fuel job file r) (fun h' _ priv' => SomeBar fits h' priv')
      h priv := by
  refine always_modify_bind.mpr (always_call_bind hshown fun u => ?_)
  have hup : Bar fits (barOf job r.currentDownloadingOi.compressedSize) []
      (h ++ [⟨.setProgressBar job 0, u⟩])
      { priv with
        currentJob := job
        updateProgressBarJob := job
        toReadTarget := r.currentDownloadingOi.compressedSize
        totalRead := 0 } :=
    hshown.bar_up hfits hsize rfl rfl rfl
  refine onModule_keeps rfl ((interp_keeps hfits (withRuntime_issues ?_) _ hup).mono
    fun _ _ _ hbar => ⟨_, hbar⟩)
  exact appPtpDownloadFile_issues fuel _ 1 0x100000 file.indexInView

theorem issues_handlePtperr {A : Op → Prop} {action : String} (rc : Rc)
    (hfatal : A (.fatalError action)) : Issues A (handlePtperr rc action) := by
  refine issues_ite (issues_bind issues_get fun mod => ?_) ?_
  · refine issues_ite (issues_bind (issues_call hfatal) fun _ => ?_) ?_
    all_goals exact issues_bind (issues_modify _) fun _ => issues_pure _
  · exact issues_ite (issues_pure _) (issues_ite (issues_pure _) (issues_pure _))

/-- Behind a request the bar is down, whatever the download has returned. -/
theorem endRequest_keeps {rc : Rc} (hfits : ∀ h t, fits (h ++ t) → fits h)
    (hbar : SomeBar fits h priv) :
    Always (Shown fits) (endRequest job file rc)
      (fun h' _ priv' => Bar fits none [] h' priv') h priv := by
  obtain ⟨bar, hbar⟩ := hbar
  refine always_bind (notify_keeps hfits hbar) fun h' _ priv' hbar' => ?_
  refine always_call_bind hbar'.shown fun u => always_modify_bind.mpr ?_
  have hshown := hbar'.shown.snoc (e := ⟨.base (.addFileContents file.indexInView
    (file.storageName.getD "") none 0 0 0), u⟩) hfits fun _ => trivial
  have hdown (mod : ModulePriv) :
      Bar fits none [] _ { priv' with toModulePriv := mod, updateProgressBarJob := 0 } := ⟨hshown, rfl⟩
  refine always_ite (fun _ => ?_) fun _ => always_pure hshown ⟨hshown, rfl⟩
  refine always_get_bind.mpr (always_bind (interp_keeps hfits (issues_handlePtperr rc trivial) _
    (hdown priv'.toModulePriv)) fun h' out priv' hbar' => ?_)
  exact always_modify_bind.mpr (always_pure hbar'.shown hbar')

/-- **A request**: with reads within the size, what is shown is in range at any time, and the bar is
down behind it. -/
theorem onRequestFileContents_keeps (fuel : ℕ) (hjob : priv.updateProgressBarJob = 0) :
    Always (Shown (RequestFits priv job file)) (onRequestFileContents fuel job file)
      (fun h' _ priv' => Bar (RequestFits priv job file) none [] h' priv') [] priv := by
  have hfits (h t : FileHistory) :
      RequestFits priv job file (h ++ t) → RequestFits priv job file h := RequestFits.of_append
  have hstart : Bar (RequestFits priv job file) none [] [] priv := ⟨fun _ => by simp, hjob⟩
  refine always_get_bind.mpr ?_
  cases hr : priv.r with
  | none => exact always_pure hstart.shown hstart
  | some r =>
    refine always_ite (fun hlive => ?_) fun hlive => ?_
    · refine always_bind (requestLive_keeps hfits (fun hne t hall => ?_) hstart.shown)
        fun _ _ _ hbar => endRequest_keeps hfits hbar
      have hwithin := hall hne
      rw [if_pos hlive] at hwithin
      exact hwithin r hr
    · refine always_bind (requestGallery_keeps hfits (fun hne h₁ oi h₂ hall => ?_) hstart)
        fun _ _ _ hbar => endRequest_keeps hfits hbar
      have hwithin := hall hne
      rw [if_neg hlive] at hwithin
      exact hwithin h₁ oi h₂ rfl

end Bar

/-! ### Runs -/

/-- Between two requests there is no bar, and a read changes nothing. -/
theorem ptpReportReadProgress_idle {size : UInt32} {priv priv' : FilesPriv} {h : FileHistory}
    (hjob : priv.updateProgressBarJob = 0)
    (hrun : Exec (ptpReportReadProgress size) priv h () priv') : h = [] ∧ priv' = priv := by
  have hrun₁ := exec_get_bind.mp hrun
  rw [if_neg (not_not.mpr hjob)] at hrun₁
  obtain ⟨hnil, -, hpriv⟩ := hrun₁.eq_of_ret rfl
  exact ⟨hnil, hpriv⟩

theorem fileRun_shows_of_idle {priv : FilesPriv} {h : FileHistory}
    (hrun : FileRun RequestFits priv h) (hjob : priv.updateProgressBarJob = 0) :
    ∀ e ∈ h, Shows e := by
  induction hrun with
  | nil => simp
  | @request fuel job file priv priv' h h' pak hcall hcond _ ih =>
    obtain ⟨hshown, hdown⟩ := (onRequestFileContents_keeps fuel hjob).exec h pak priv' hcall
    intro e he
    rcases List.mem_append.mp he with he | he
    · exact hshown hcond e he
    · exact ih hdown e he
  | @unfinished fuel job file priv h hreach hcond =>
    exact (onRequestFileContents_keeps fuel hjob).reaches h hreach hcond
  | notify hcall _ ih =>
    obtain ⟨rfl, rfl⟩ := ptpReportReadProgress_idle hjob hcall
    exact ih hjob
  | other _ ih => exact ih hjob

/-- **Nothing is divided by zero, and percentages are in range**, over any sequence of requests
whose reads stay within the size of their file from the moment on that the bar is set up. -/
theorem fileRun_shows {h : FileHistory} (hrun : FileRun RequestFits filesInit h) :
    ∀ e ∈ h, Shows e :=
  fileRun_shows_of_idle hrun rfl

/-- The first file of the live storage. -/
def liveFile : FileHandle := ⟨some liveStorageDeviceName, 0⟩

/-- A camera that accepts everything, with a read of a size before every operation. -/
def reading (size : UInt32) : (op : FileOp) → op.Ret
  | .base op => accessPoint op
  | .notified => [size]
  | .setProgressBar _ _ | .divideByZero => ()

/-- The module is connected, and an object of a size is queued. -/
def queuedModule (size : UInt32) : FilesPriv :=
  { filesInit with
    r := some { fujiPtpNew with currentDownloadingOi := { ObjectInfo.zero with compressedSize := size } } }

/-- A live file of 100 bytes is requested, with five reads of 20 bytes. -/
theorem fileRun_shows_liveFile : ∃ h, FileRun RequestFits filesInit h ∧
    notified h = [20, 20, 20, 20, 20] ∧ ∀ e ∈ h, Shows e := by
  have htrace : ((onRequestFileContents 1 1 liveFile (queuedModule 100)).trace (reading 20)).map
      (fun r => notified r.1) = some [20, 20, 20, 20, 20] := by
    decide +kernel
  obtain ⟨⟨h, pak, priv'⟩, hsome, hreads⟩ := Option.map_eq_some_iff.mp htrace
  have hfits : RequestFits (queuedModule 100) 1 liveFile h := by
    intro _
    rw [if_pos (show liveFile.storageName = some liveStorageDeviceName from rfl)]
    rintro r ⟨⟩ reads hprefix
    rw [hreads] at hprefix
    have hall : ∀ reads ∈ List.inits [20, 20, 20, 20, 20],
        reads ≠ [] → 100 * (reads : List UInt32).sum.toNat < 101 * (100 : UInt32).toNat := by decide
    exact hall reads ((List.mem_inits _ _).mpr hprefix)
  have hrequest : FileRun RequestFits (queuedModule 100) (h ++ []) :=
    .request (Prog.runs_of_trace hsome).1 hfits (.nil _)
  rw [List.append_nil] at hrequest
  have hrun := @FileRun.other _ filesInit (queuedModule 100).toModulePriv _ hrequest
  exact ⟨h, hrun, hreads, fileRun_shows hrun⟩

/-- A live file is requested before anything has been queued. -/
theorem fileRun_not_shows : ¬ ∀ h, FileRun (fun _ _ _ _ => True) filesInit h → ∀ e ∈ h, Shows e := by
  intro hall
  have htrace : ((onRequestFileContents 1 1 liveFile (queuedModule 0)).trace (reading 20)).map
      (fun r => decide (∀ e ∈ r.1, Shows e)) = some false := by
    decide +kernel
  obtain ⟨⟨h, pak, priv'⟩, hsome, hshows⟩ := Option.map_eq_some_iff.mp htrace
  have hrequest : FileRun (fun _ _ _ _ => True) (queuedModule 0) (h ++ []) :=
    .request (Prog.runs_of_trace hsome).1 trivial (.nil _)
  rw [List.append_nil] at hrequest
  have hrun := @FileRun.other _ filesInit (queuedModule 0).toModulePriv _ hrequest
  exact of_decide_eq_false hshows (hall h hrun)

end Fuji
