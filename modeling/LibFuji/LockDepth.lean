/-
The depth of the mutex.

What is in hand is the mutex (`lockWeight`), as often as it is held: every part of a function either
leaves it alone (`Op.NoLock`), or settles what it takes, or says whether it is still held, as the
parts with a return of their own do (`Returned`, `Exit.Left`).

`lockCall_keepsDepth`: over any answers, and with any calls of the functions nested in one another,
the mutex is never released below the depth at which a function is entered, and has just this depth
when it returns.
-/
import LibFuji.Custody
import LibFuji.Locks

namespace Fuji

open Interaction Exif

/-! ### What is locked -/

/-- How often an operation takes the mutex. -/
def lockWeight (e : Event LockOp LockOp.Ret) : ℤ :=
  match e.1 with
  | .base .mutexLock => 1
  | .base .mutexUnlock => -1
  | _ => 0

/-- The same for an operation of the runtime. -/
def mutexWeight (e : Event Op Op.Ret) : ℤ := lockWeight ⟨.base e.1, e.2⟩

/-- Operations that leave the mutex alone. -/
def Op.NoLock : Op → Prop
  | .mutexLock | .mutexUnlock => False
  | _ => True

theorem mutexWeight_noLock {op : Op} (hop : op.NoLock) (r : op.Ret) : mutexWeight ⟨op, r⟩ = 0 := by
  cases op <;> first | exact hop.elim | rfl

/-- A step that releases nothing that is not held. -/
theorem mutexStep_eq {e : Event LockOp LockOp.Ret} {depth : ℕ}
    (hnonneg : 0 ≤ depth + lockWeight e) :
    ∃ depth', mutexStep e.1 depth = some depth' ∧ (depth' : ℤ) = depth + lockWeight e := by
  obtain ⟨op, r⟩ := e
  have hkeep {w : ℤ} (hw : w = 0) : ∃ depth', some depth = some depth' ∧ (depth' : ℤ) = depth + w :=
    ⟨depth, rfl, by omega⟩
  cases op with
  | base op =>
    cases op with
    | mutexLock => exact ⟨depth + 1, rfl, Nat.cast_succ depth⟩
    | mutexUnlock =>
      have hheld : depth ≠ 0 := by
        rintro rfl
        exact absurd (show (0 : ℤ) ≤ 0 + -1 from hnonneg) (by decide)
      refine ⟨depth - 1, if_neg hheld, ?_⟩
      change ((depth - 1 : ℕ) : ℤ) = depth + -1
      omega
    | _ => exact hkeep rfl
  | _ => exact hkeep rfl

/-- The depth is what has been taken, where no part of the history releases more than that. -/
theorem depthBehind_eq {depth : ℕ} {h : LockHistory}
    (hnonneg : ∀ h₁, h₁ <+: h → 0 ≤ depth + takings lockWeight h₁) :
    ∃ depth', depthBehind depth h = some depth' ∧
      (depth' : ℤ) = depth + takings lockWeight h := by
  induction h generalizing depth with
  | nil => exact ⟨depth, rfl, (add_zero _).symm⟩
  | cons e h ih =>
    have hfirst := hnonneg [e] ⟨h, rfl⟩
    rw [takings_cons, takings_nil, add_zero] at hfirst
    obtain ⟨depth₁, hstep, heq⟩ := mutexStep_eq hfirst
    have hrest (h₁ : LockHistory) (hpre : h₁ <+: h) : 0 ≤ depth₁ + takings lockWeight h₁ := by
      have hnext := hnonneg (e :: h₁) ((List.prefix_cons_inj e).mpr hpre)
      rwa [takings_cons, ← add_assoc, ← heq] at hnext
    obtain ⟨depth', hbehind, heq'⟩ := ih hrest
    refine ⟨depth', ?_, by rw [takings_cons, ← add_assoc, ← heq, heq']⟩
    rw [depthBehind, List.foldlM_cons, hstep]
    exact hbehind

/-- **What settles keeps the depth.** -/
theorem keepsDepth_of_settles {α : Type} {m : CallM α} (hm : Settles lockWeight 0 m) :
    KeepsDepth m := by
  obtain ⟨hreach, hexec⟩ := custody_iff.mp hm
  have hdepth (depth : ℕ) (h : LockHistory) (hh : Reaches m () h) : ∃ depth',
      depthBehind depth h = some depth' ∧ (depth' : ℤ) = depth + takings lockWeight h := by
    refine depthBehind_eq fun h₁ hpre => ?_
    have hnonneg := hreach () h₁ (hh.of_prefix hpre)
    omega
  constructor
  · intro depth h hh
    obtain ⟨depth', hbehind, heq⟩ := hdepth depth h hh
    have hnonneg := hreach () h hh
    exact ⟨depth', hbehind, by omega⟩
  · intro depth h a hrun
    obtain ⟨depth', hbehind, heq⟩ := hdepth depth h hrun.reaches
    have hzero := hexec () h a () hrun
    rw [hbehind]
    exact congrArg some (by omega)

/-! ### Programs -/

section Programs

variable {α β : Type}

/-- A part that leaves the mutex alone. -/
theorem settles_of_issues {σ : Type} {m : StateT σ (Prog Op Op.Ret) α} (hm : Issues Op.NoLock m) :
    Settles mutexWeight 0 m :=
  custody_of_issues hm (fun _ r hop => mutexWeight_noLock hop r) le_rfl fun _ => rfl

theorem settles_pure (a : α) : Settles mutexWeight 0 (pure a : PtpM α) := custody_pure le_rfl rfl

theorem settles_bind {m : PtpM α} {f : α → PtpM β} (hm : Settles mutexWeight 0 m)
    (hf : ∀ a, Settles mutexWeight 0 (f a)) : Settles mutexWeight 0 (m >>= f) :=
  hm.bind le_rfl hf

/-- What takes the mutex has to give it back. -/
theorem settles_lock {f : Unit → PtpM α} (hf : Settles mutexWeight 1 (f ())) :
    Settles mutexWeight 0 (ptpMutexLock >>= f) :=
  custody_call_bind le_rfl fun _ => hf

theorem custody_unlock {f : Unit → PtpM α} {Q : α → ℤ → Prop}
    (hf : Custody mutexWeight 0 (f ()) Q) : Custody mutexWeight 1 (ptpMutexUnlock >>= f) Q :=
  custody_call_bind zero_le_one fun _ => hf

/-- A return that gives the mutex back. -/
theorem settles_unlock (a : α) : Settles mutexWeight 1 (do ptpMutexUnlock; return a : PtpM α) :=
  custody_unlock (settles_pure a)

/-- While the mutex is held, a part is run that gives back what it takes. -/
theorem custody_held {m : PtpM α} {f : α → PtpM β} {Q : β → ℤ → Prop}
    (hm : Settles mutexWeight 0 m) (hf : ∀ a, Custody mutexWeight 1 (f a) Q) :
    Custody mutexWeight 1 (m >>= f) Q :=
  hm.bind zero_le_one hf

theorem custody_transact {c : PtpCommand} {f : Resp c → PtpM α} {Q : α → ℤ → Prop}
    (hf : ∀ r, Custody mutexWeight 1 (f r) Q) : Custody mutexWeight 1 (transact c >>= f) Q :=
  custody_held (settles_of_issues (issues_transact trivial)) hf

theorem custody_transactRc {c : PtpCommand} {f : Rc → PtpM α} {Q : α → ℤ → Prop}
    (hf : ∀ rc, Custody mutexWeight 1 (f rc) Q) : Custody mutexWeight 1 (transactRc c >>= f) Q :=
  custody_held (settles_of_issues (issues_transactRc trivial)) hf

theorem custody_ask {op : Op} {f : op.Ret → PtpM α} {Q : α → ℤ → Prop} (hop : op.NoLock)
    (hf : ∀ r, Custody mutexWeight 1 (f r) Q) : Custody mutexWeight 1 (ask op >>= f) Q :=
  custody_held (settles_of_issues (issues_ask hop)) hf

end Programs

/-! ### Polls -/

theorem noLock_outOfBounds (of : ℕ) : Op.NoLock (.outOfBounds of) := trivial

/-- Behind a return the mutex has been given back, and otherwise it is held. -/
def Returned : Option Rc → ℤ → Prop
  | some _, depth => depth = 0
  | none, depth => depth = 1

theorem custody_goesOn : Custody mutexWeight 1 (pure none : PtpM (Option Rc)) Returned :=
  custody_pure zero_le_one rfl

theorem leaveOnError_returned (rc : Rc) : Custody mutexWeight 1 (leaveOnError rc) Returned :=
  custody_ite (custody_unlock (custody_pure le_rfl rfl)) custody_goesOn

/-- What follows a part with a return: nothing behind the return, and the rest if it goes on. -/
theorem custody_returned_bind {α : Type} {m : PtpM (Option Rc)} {f : Option Rc → PtpM α}
    {Q : α → ℤ → Prop} (hm : Custody mutexWeight 1 m Returned)
    (hsome : ∀ rc, Custody mutexWeight 0 (f (some rc)) Q)
    (hnone : Custody mutexWeight 1 (f none) Q) :
    Custody mutexWeight 1 (m >>= f) Q := by
  refine custody_bind hm fun left depth hleft => ?_
  cases left with
  | some rc =>
    rw [show depth = 0 from hleft]
    exact hsome rc
  | none =>
    rw [show depth = 1 from hleft]
    exact hnone

theorem queueFreeSDRAMImagesReturns_returned (a : List UInt32) (i n : ℕ) :
    Custody mutexWeight 1 (queueFreeSDRAMImagesReturns a i n) Returned := by
  induction n with
  | zero => exact custody_goesOn
  | succ n ih =>
    refine custody_held (settles_of_issues (issues_handleAt trivial)) fun handle => ?_
    have hqueue (objectId : Int) : Issues Op.NoLock (appQueueFileForDownload objectId) :=
      issues_appQueueFileForDownload trivial fun _ _ => trivial
    refine custody_held (settles_of_issues (hqueue _)) fun rc => ?_
    exact custody_returned_bind (leaveOnError_returned rc) (fun _ => custody_pure le_rfl rfl) ih

theorem onEventReturns_returned (i : ℕ) (code : UInt16) (value : UInt32) :
    Custody mutexWeight 1 (onEventReturns i code value) Returned := by
  have hset (f : PtpRuntime → PtpRuntime) :
      Custody mutexWeight 1 (do modify f; return none : PtpM (Option Rc)) Returned :=
    custody_modify_bind custody_goesOn
  have hqueue : Issues Op.NoLock onMultipleTransfer :=
    issues_onMultipleTransfer (fun _ _ => trivial) trivial fun _ _ => trivial
  refine custody_ite (hset _) (custody_ite (hset _) ?_)
  refine custody_ite ?_ (custody_ite ?_ custody_goesOn)
  · refine custody_modify_bind (custody_ite ?_ custody_goesOn)
    exact custody_held (settles_of_issues hqueue) fun rc => leaveOnError_returned rc
  · refine custody_get_bind fun fuji => custody_ite (custody_transact fun r => ?_) custody_goesOn
    exact custody_returned_bind (leaveOnError_returned r.rc) (fun _ => custody_pure le_rfl rfl)
      (queueFreeSDRAMImagesReturns_returned _ i _)

theorem eventLoopReturns_settles (n i : ℕ) : Settles mutexWeight 1 (eventLoopReturns n i) := by
  have hread16 (of : ℕ) : Settles mutexWeight 0 (readU16 of) :=
    settles_of_issues (issues_readU16 noLock_outOfBounds of)
  have hread32 (of : ℕ) : Settles mutexWeight 0 (readU32 of) :=
    settles_of_issues (issues_readU32 noLock_outOfBounds of)
  induction n generalizing i with
  | zero => exact settles_unlock Rc.ok
  | succ n ih =>
    refine custody_held (hread16 0) fun length => custody_ite ?_ (settles_unlock Rc.ok)
    refine custody_held (hread16 _) fun code => custody_held (hread32 _) fun value => ?_
    exact custody_returned_bind (onEventReturns_returned i code value) settles_pure (ih (i + 1))

theorem fujiGetEventsReturns_settles : Settles mutexWeight 0 fujiGetEventsReturns := by
  refine settles_lock (custody_transact fun r => ?_)
  refine custody_ite (settles_unlock Rc.ok) (custody_ite (settles_unlock r.rc) ?_)
  refine custody_held (settles_of_issues (issues_readU16 noLock_outOfBounds 0)) fun _ => ?_
  refine custody_held (settles_of_issues (issues_logLoop noLock_outOfBounds _ _)) fun _ => ?_
  exact eventLoopReturns_settles _ _

theorem fujiGetEvents_settles : Settles mutexWeight 0 fujiGetEvents := by
  rw [← fujiGetEventsReturns_eq]
  exact fujiGetEventsReturns_settles

/-! ### The other functions on the runtime -/

section Runtime

variable {fuel : ℕ} {handle : Int}

theorem fujiRegisterDeviceInfo_noLock (reg : Registry) :
    Issues Op.NoLock (fujiRegisterDeviceInfo reg) := by
  have hread16 (of : ℕ) := issues_readU16 noLock_outOfBounds of
  have hread32 (of : ℕ) := issues_readU32 noLock_outOfBounds of
  have hvalue (type : UInt16) (of : UInt32) : Issues Op.NoLock (readValue type of) :=
    issues_ite (hread32 _) (issues_bind (hread16 _) fun _ => issues_pure _)
  have hitems (code type : UInt16) (n : ℕ) (of : UInt32) :
      Issues Op.NoLock (readItems code type n of) := by
    induction n generalizing of with
    | zero => exact issues_pure _
    | succ n ih =>
      exact issues_bind (hvalue type of) fun _ => issues_bind (ih _) fun _ => issues_pure _
  have hdefaults (type : UInt16) (of : UInt32) : Issues Op.NoLock (readDefaults type of) := by
    refine issues_ite (issues_bind (hread32 _) fun _ => ?_) ?_
    · exact issues_bind (hread32 _) fun _ => issues_pure _
    · exact issues_bind (hread32 _) fun _ => issues_pure _
  have hdesc (code type : UInt16) (of : UInt32) : Issues Op.NoLock (readDesc code type of) :=
    issues_bind (hdefaults type of) fun _ => issues_bind (hread16 _) fun _ =>
      issues_bind (hitems code type _ _) fun _ => issues_pure _
  have hentry (of : UInt32) : Issues Op.NoLock (registerEntry of) := by
    refine issues_bind (hread32 _) fun _ => issues_bind (hread16 _) fun code => ?_
    refine issues_bind (hread16 _) fun type => issues_ite ?_ (issues_pure _)
    exact issues_bind (hdesc code type _) fun _ => issues_pure _
  have hentries (n : ℕ) (of : UInt32) : Issues Op.NoLock (registerEntries n of) := by
    induction n generalizing of with
    | zero => exact issues_pure _
    | succ n ih =>
      refine issues_bind issues_get fun s => issues_ite (issues_pure none) ?_
      exact issues_bind (hentry of) fun _ => issues_bind (ih _) fun _ => issues_pure _
  exact issues_bind (hread32 0) fun _ => issues_bind (hentries _ _) fun _ => issues_pure _

theorem fujiGetDeviceInfo_settles (reg : Registry) :
    Settles mutexWeight 0 (fujiGetDeviceInfo reg) := by
  refine settles_lock (custody_transactRc fun rc => ?_)
  refine custody_held (settles_of_issues (fujiRegisterDeviceInfo_noLock reg)) fun registered => ?_
  cases registered with
  | none => exact custody_hang zero_le_one
  | some registered => exact settles_unlock (rc, registered.1)

theorem fujiConfigVersion_settles : Settles mutexWeight 0 fujiConfigVersion := by
  have hconfirm (code : ℕ) : Issues Op.NoLock (confirmVersion code) :=
    issues_andThen (issues_transactRc trivial)
      (issues_bind (issues_ask trivial) fun _ => issues_transactRc trivial)
  have hversion : Issues Op.NoLock fujiConfigVersion_ :=
    issues_bind issues_get fun _ => issues_ite (issues_pure _) <|
      issues_ite (hconfirm _) <| issues_ite (hconfirm _) (issues_transactRc trivial)
  exact settles_lock (custody_held (settles_of_issues hversion) settles_unlock)

theorem ptpipFujiConnectHandshake_settles (deviceName : List UInt8) :
    Settles mutexWeight 0 (ptpipFujiConnectHandshake deviceName) := by
  have hshake : Issues Op.NoLock (ptpipFujiConnectHandshake_ deviceName) := by
    refine issues_bind (issues_ask trivial) fun x => issues_ite (issues_pure _) ?_
    refine issues_bind (issues_ask trivial) fun reply => issues_ite (issues_pure _) ?_
    refine issues_bind (issues_ask trivial) fun reply => issues_ite (issues_pure _) ?_
    exact issues_ite (issues_pure _) (issues_pure _)
  exact settles_lock (custody_held (settles_of_issues hshake) settles_unlock)

theorem fujiGetBatteryPercent_settles (value : Int32) :
    Settles mutexWeight 0 (fujiGetBatteryPercent value) := by
  refine settles_lock (custody_transactRc fun rc => custody_ite ?_ ?_)
  · exact custody_ask trivial fun value => settles_unlock (rc, value)
  · exact custody_held (settles_pure value) fun value => settles_unlock (rc, value)

theorem fujiusbDownloadBackup_settles (unsupported : Rc) :
    Settles mutexWeight 0 (fujiusbDownloadBackup unsupported) := by
  refine custody_get_bind fun fuji => custody_ite (settles_pure _) (settles_lock ?_)
  refine custody_transactRc fun rc => custody_ite (settles_unlock rc) ?_
  refine custody_transactRc fun rc => custody_ite (settles_unlock rc) ?_
  exact custody_get_bind fun s => custody_ask trivial fun _ => settles_unlock rc

/-- The handler of the Exif reader leaves the mutex alone. -/
theorem exifHandler_noLock (handle : Int) (op : ExifOp) (c : MyAddInfo) :
    Issues Op.NoLock (exifHandler handle op c) := by
  have hread (m : Memory) (of : ℕ) : Issues Op.NoLock (m.read of) := by
    rw [Memory.read]
    cases m of with
    | some b => exact issues_pure b
    | none => exact @issues_ask Op.NoLock (.unwritten of) trivial
  have hbytes (m : Memory) (of n : ℕ) : Issues Op.NoLock (m.readBytes of n) := by
    induction n with
    | zero => exact issues_pure _
    | succ n ih => exact issues_bind ih fun _ => issues_bind (hread m _) fun _ => issues_pure _
  cases op with
  | ensureSize length =>
    refine issues_ite (issues_bind ?_ fun more => ?_) (issues_pure _)
    · refine issues_bind (issues_transact trivial) fun r => ?_
      exact issues_ite (issues_pure _) (issues_pure _)
    · cases more with
      | none => exact issues_pure _
      | some buffer => exact issues_pure _
  | read field of n => exact issues_bind (hbytes c.buffer _ n) fun bytes => issues_pure _

theorem ptpGetPartialExifReturns_settles (handle : Int) :
    Settles mutexWeight 0 (ptpGetPartialExifReturns handle) := by
  have hpoll := fujiGetEventsReturns_settles
  have hend (rc : Rc) (of size : UInt32) : Settles mutexWeight 1 (endPartialExif rc of size) :=
    settles_unlock (rc, of, size)
  have hexif (temp : MyAddInfo) : Settles mutexWeight 0
      ((exifStartRaw ExifParser.zero).interp (exifHandler handle) temp) :=
    settles_interp (fun op c => settles_of_issues (exifHandler_noLock handle op c)) temp
  refine settles_lock (custody_held hpoll fun rc => custody_ite (settles_unlock _) ?_)
  refine custody_transact fun r => ?_
  refine custody_ite (settles_unlock _) (custody_ite (settles_unlock _) ?_)
  refine custody_get_bind fun s => custody_held (hexif _) fun exif => ?_
  refine custody_ite (hend _ _ _) (custody_held hpoll fun rc => custody_ite (hend rc _ _) ?_)
  refine custody_held hpoll fun rc => custody_ite (hend rc _ _) ?_
  refine custody_held hpoll fun rc => custody_ite (hend rc _ _) ?_
  exact custody_held hpoll fun rc => hend rc _ _

/-- How the download of an object leaves the mutex. -/
def Exit.Left : Exit → ℤ → Prop
  | .leave _, depth => depth = 0
  | .cleanup _, depth => depth = 1

theorem custody_cleanup (rc : Rc) :
    Custody mutexWeight 1 (pure (.cleanup rc) : PtpM Exit) Exit.Left :=
  custody_pure zero_le_one rfl

theorem downloadLoop_left (oi : ObjectInfo) (read : UInt32) :
    Custody mutexWeight 1 (downloadLoop handle oi fuel read) Exit.Left := by
  induction fuel generalizing read with
  | zero => exact custody_hang zero_le_one
  | succ fuel ih =>
    refine custody_ask trivial fun cancelled => custody_ite (custody_cleanup _) ?_
    refine custody_transact fun r => custody_ite (custody_cleanup _) ?_
    refine custody_ite (custody_unlock (custody_pure le_rfl rfl)) (custody_get_bind fun s => ?_)
    refine custody_ask trivial fun _ => custody_ite (custody_cleanup _) ?_
    refine custody_ask trivial fun rc => custody_ite (custody_cleanup _) ?_
    exact custody_ite (custody_cleanup _) (ih _)

theorem openDownload_settles : Settles mutexWeight 0 openDownload := by
  have htransact (c : PtpCommand) :
      Issues Op.NoLock (do let _ ← transact c; return .ok : PtpM Rc) :=
    issues_bind (issues_transact trivial) fun _ => issues_pure _
  refine custody_get_bind fun fuji => custody_ite ?_ (custody_ite ?_ (settles_pure _))
  · refine settles_bind fujiGetEvents_settles fun rc => custody_ite (settles_pure _) ?_
    exact settles_of_issues (htransact _)
  · exact settles_of_issues (htransact _)

theorem closeDownload_settles (rc : Rc) : Settles mutexWeight 1 (closeDownload rc) := by
  refine custody_get_bind fun fuji => custody_ite ?_ (custody_ite ?_ (settles_unlock rc))
  · refine custody_held fujiGetEvents_settles fun rc => custody_ite (settles_unlock rc) ?_
    exact custody_transact fun r => settles_unlock r.rc
  · exact custody_transact fun _ => settles_unlock rc

theorem fujiDownloadFileEx_settles (fuel : ℕ) (handle : Int) (info : Bool) :
    Settles mutexWeight 0 (fujiDownloadFileEx fuel handle info) := by
  have hobject : Custody mutexWeight 1 (downloadObject fuel handle info) Exit.Left := by
    refine custody_transact fun r => custody_ite (custody_cleanup _) ?_
    refine custody_ask trivial fun _ => custody_ite ?_ (downloadLoop_left _ 0)
    exact custody_ask trivial fun _ => downloadLoop_left _ 0
  refine settles_bind openDownload_settles fun rc => custody_ite (settles_pure rc) (settles_lock ?_)
  refine custody_bind hobject fun exit depth hleft => ?_
  cases exit with
  | cleanup rc =>
    rw [show depth = 1 from hleft]
    exact closeDownload_settles rc
  | leave rc =>
    rw [show depth = 0 from hleft]
    exact settles_pure rc

theorem appPtpDownloadFile_settles (fuel : ℕ) (oi : ObjectInfo) (objectId : Int)
    (maxChunkSize : UInt32) (index : Int) :
    Settles mutexWeight 0 (appPtpDownloadFile fuel oi objectId maxChunkSize index) := by
  have hend (read : UInt32) : Settles mutexWeight 0 (endDownload oi index read) :=
    settles_of_issues (issues_bind (issues_ask trivial) fun _ => issues_pure _)
  have hloop (read : UInt32) :
      Settles mutexWeight 0 (appPtpDownloadLoop oi objectId maxChunkSize index fuel read) := by
    induction fuel generalizing read with
    | zero => exact custody_hang le_rfl
    | succ fuel ih =>
      refine settles_lock (custody_transact fun r => custody_ite (settles_unlock r.rc) ?_)
      refine custody_get_bind fun s => custody_ite (custody_unlock (hend read)) ?_
      exact custody_ask trivial fun _ => custody_unlock (custody_ite (hend _) (ih _))
  exact hloop 0

theorem fujiSendRaf_noLock (path : String) : Issues Op.NoLock (fujiSendRaf path) := by
  refine issues_bind (issues_ask trivial) fun opened => issues_ite (issues_pure _) ?_
  refine issues_bind (issues_ask trivial) fun size => ?_
  refine issues_bind (issues_ask trivial) fun block => ?_
  cases block with
  | none => exact issues_hang
  | some buffer =>
    refine issues_bind (issues_ask trivial) fun bytes => ?_
    refine issues_bind (issues_ask trivial) fun _ => ?_
    refine issues_bind (issues_transact trivial) fun r => issues_ite (issues_pure _) ?_
    exact issues_bind (issues_transact trivial) fun r => issues_pure r.rc

theorem waitForImage_noLock (outputPath : String) (n : ℕ) :
    Issues Op.NoLock (waitForImage outputPath n) := by
  induction n with
  | zero => exact issues_pure _
  | succ n ih =>
    refine issues_bind (issues_transact trivial) fun r => issues_ite (issues_pure _) ?_
    rcases (r.out : List UInt32) with - | ⟨handle, list⟩
    · exact issues_bind (issues_ask trivial) fun _ => ih
    · refine issues_bind (issues_transact trivial) fun r => issues_ite (issues_pure _) ?_
      refine issues_bind (issues_ask trivial) fun opened => issues_ite (issues_pure _) ?_
      refine issues_bind issues_get fun s => issues_bind (issues_ask trivial) fun _ => ?_
      refine issues_bind (issues_ask trivial) fun _ => ?_
      refine issues_bind (issues_transact trivial) fun r => ?_
      exact issues_ite (issues_pure _) (issues_pure _)

theorem fujiProcessRaf_settles (lib : FpLib) (fp userFp : FujiProfile)
    (inputRafPath outputPath : String) :
    Settles mutexWeight 0 (fujiProcessRaf lib fp userFp inputRafPath outputPath) := by
  have hprofile (created : Created) : Issues Op.NoLock (sendProfile created outputPath) := by
    rw [sendProfile]
    refine issues_ite (issues_pure _) (issues_bind (issues_transact trivial) fun r => ?_)
    refine issues_ite (issues_pure _) (issues_bind (issues_transact trivial) fun r => ?_)
    exact issues_ite (issues_pure _) (waitForImage_noLock outputPath 20)
  have hconvert (profile : List UInt8) :
      Issues Op.NoLock (convertProfile lib fp userFp profile outputPath) := by
    rw [convertProfile]
    exact issues_ite (issues_ite (issues_pure _) (hprofile _)) (issues_pure _)
  refine custody_get_bind fun fuji => custody_ite (settles_pure _) ?_
  refine settles_bind (settles_of_issues (fujiSendRaf_noLock inputRafPath)) fun rc => ?_
  refine custody_ite (settles_pure rc) (settles_lock (custody_transact fun r => ?_))
  refine custody_ite (settles_unlock r.rc) (custody_get_bind fun s => ?_)
  exact custody_unlock (settles_of_issues (hconvert _))

end Runtime

/-! ### The functions of the module -/

section Module

variable {α : Type}

theorem fujiGetThumb_settles (handle : Int) : Settles mutexWeight 0 (fujiGetThumb handle) := by
  have hexif : Settles mutexWeight 0 (ptpGetPartialExif handle) := by
    rw [← ptpGetPartialExifReturns_eq]
    exact ptpGetPartialExifReturns_settles handle
  have hthumb : Issues Op.NoLock (getThumbnail handle) := by
    refine issues_bind (issues_transact trivial) fun r => issues_ite (issues_pure _) ?_
    refine issues_ite (issues_pure _) (issues_bind issues_get fun s => ?_)
    exact issues_ite (issues_pure _) (issues_pure _)
  have hinfo : Issues Op.NoLock (do
      let r ← transact (.getObjectInfo handle)
      if r.rc = .checkCode then return (.ok, 0, 0)
      else if r.rc ≠ .ok then return (r.rc, 0, 0)
      else
        let oi : ObjectInfo := r.out
        let _ ← ask (.updateObjectInfo handle oi)
        getThumbnail handle : PtpM (Rc × UInt32 × UInt32)) := by
    refine issues_bind (issues_transact trivial) fun r => issues_ite (issues_pure _) ?_
    exact issues_ite (issues_pure _) (issues_bind (issues_ask trivial) fun _ => hthumb)
  refine custody_get_bind fun s => custody_ite (custody_ite hexif (settles_pure _)) ?_
  exact custody_ite (settles_of_issues hinfo) (settles_of_issues hthumb)

theorem withRuntime_settles {m : PtpM α} (hm : Settles mutexWeight 0 m) :
    Settles mutexWeight 0 (withRuntime m) := by
  intro mod
  rw [withRuntime]
  cases mod.r with
  | none => exact le_rfl
  | some r =>
    refine Prog.custody_bind (hm r) fun out c hc => ?_
    rw [show c = 0 from hc]
    exact ⟨le_rfl, rfl⟩

theorem onBase_settles {m : ModM α} (hm : Settles mutexWeight 0 m) :
    Settles lockWeight 0 (onBase m) := by
  have hask (op : Op) (t : Unit) (b : ℤ) (hb : 0 ≤ b) (hop : ∀ r, 0 ≤ b + mutexWeight ⟨op, r⟩) :
      Custody lockWeight b (askBase op t) fun r c => c = b + mutexWeight ⟨op, r.1⟩ :=
    custody_call_bind hb fun r => custody_pure (hop r) rfl
  refine custody_get_bind fun mod => ?_
  refine Settles.bind (custody_interp hask (hm mod) ()) le_rfl fun out => ?_
  exact custody_modify_bind (custody_pure le_rfl rfl)

theorem runtimeCall_settles {m : PtpM α} (hm : Settles mutexWeight 0 m) :
    Settles lockWeight 0 (runtimeCall m) :=
  (onBase_settles (withRuntime_settles hm)).bind le_rfl fun _ => custody_pure le_rfl rfl

theorem theRuntime_settles : Settles lockWeight 0 theRuntime := by
  refine custody_get_bind fun mod => ?_
  cases mod.r with
  | none => exact custody_hang le_rfl
  | some r => exact custody_pure le_rfl rfl

theorem askLock_settles {op : LockOp} (hop : ∀ r, lockWeight ⟨op, r⟩ = 0) :
    Settles lockWeight 0 (askLock op) :=
  custody_call le_rfl fun r => by simp [hop r]

/-- The mutex is taken, and has to be given back. -/
theorem custody_askLock {f : Unit → LockM α} (hf : Settles lockWeight 1 (f ())) :
    Settles lockWeight 0 (askLock (.base .mutexLock) >>= f) :=
  custody_call_bind le_rfl fun _ => hf

theorem custody_askUnlock {f : Unit → LockM α} (hf : Settles lockWeight 0 (f ())) :
    Settles lockWeight 1 (askLock (.base .mutexUnlock) >>= f) :=
  custody_call_bind zero_le_one fun _ => hf

theorem onRequestThumbnail_settles (file : FileHandle) :
    Settles lockWeight 0 (onRequestThumbnail file) := by
  have hok : Settles lockWeight 0 (pure .ok : LockM PakRc) := custody_pure le_rfl rfl
  have hthumb : Settles lockWeight 0 (onBase (withRuntime (fujiGetThumb (file.indexInView + 1)))) :=
    onBase_settles (withRuntime_settles (fujiGetThumb_settles _))
  refine custody_get_bind fun mod => custody_ite (custody_askLock ?_) hok
  refine hthumb.bind zero_le_one fun thumb => custody_ite ?_ (custody_ite ?_ ?_)
  · refine (askLock_settles fun _ => rfl).bind zero_le_one fun _ => ?_
    exact custody_askUnlock hok
  · exact custody_askUnlock (onBase_settles (settles_of_issues (issues_handlePtperr _ trivial)))
  · refine theRuntime_settles.bind zero_le_one fun r => ?_
    refine (askLock_settles fun _ => rfl).bind zero_le_one fun _ => ?_
    exact custody_askUnlock hok

theorem onRequestLiveviewFrame_settles (fuel : ℕ) (data : List UInt8) (handle : FileHandle) :
    Settles lockWeight 0 (onRequestLiveviewFrame fuel data handle) := by
  have hvideo (op : VideoOp) (t : Unit) : Settles lockWeight 0 (askVideo op t) :=
    (askLock_settles fun _ => rfl).bind le_rfl fun _ => custody_pure le_rfl rfl
  have hadd (rc : Int) (size : UInt32) (data : List UInt8) :
      Settles lockWeight 0 (addFrame handle rc size data) :=
    custody_ite (askLock_settles fun _ => rfl) (custody_pure le_rfl rfl)
  refine custody_get_bind fun mod => custody_ite (custody_askLock ?_) (custody_pure le_rfl rfl)
  refine Settles.bind (settles_interp hvideo ()) zero_le_one fun frame => ?_
  exact (hadd _ _ _).bind zero_le_one fun _ => custody_askUnlock (custody_pure le_rfl rfl)

theorem ptpReportError_settles (reason : Option String) (code : Rc) :
    Settles lockWeight 0 (ptpReportError reason code) := by
  have hdone : Settles lockWeight 0 (pure () : LockM Unit) := custody_pure le_rfl rfl
  have hclose : Settles lockWeight 0 (closeIntended code) := by
    refine custody_ite ((askLock_settles fun _ => rfl).bind le_rfl fun payload => ?_) hdone
    exact custody_modify_bind hdone
  have hgoodbye (connectionType : ConnectionType) :
      Settles lockWeight 0 (sayGoodbye connectionType) := by
    cases connectionType with
    | ipUsb =>
      exact (askLock_settles fun _ => rfl).bind le_rfl fun _ => askLock_settles fun _ => rfl
    | usb => exact askLock_settles fun _ => rfl
    | ip => exact hdone
  refine theRuntime_settles.bind le_rfl fun r => ?_
  refine (askLock_settles fun _ => rfl).bind le_rfl fun killed => custody_ite hdone ?_
  refine custody_askLock ((askLock_settles fun _ => rfl).bind zero_le_one fun killed => ?_)
  refine custody_ite (custody_askUnlock hdone) ?_
  refine hclose.bind zero_le_one fun _ => ?_
  refine (askLock_settles fun _ => rfl).bind zero_le_one fun _ => ?_
  refine (hgoodbye _).bind zero_le_one fun _ => ?_
  refine (askLock_settles fun _ => rfl).bind zero_le_one fun _ => ?_
  exact custody_askUnlock (askLock_settles fun _ => rfl)

end Module

/-! ### Every function -/

/-- **Every function** gives the mutex back as often as it takes it. -/
theorem LockCall.program_settles (c : LockCall) : Settles lockWeight 0 c.program := by
  have hresult {α : Type} {m : LockM α} (hm : Settles lockWeight 0 m) :
      Settles lockWeight 0 (noResult m) :=
    hm.bind le_rfl fun _ => custody_pure le_rfl rfl
  cases c with
  | fujiGetEvents => exact runtimeCall_settles fujiGetEventsReturns_settles
  | fujiGetDeviceInfo reg => exact runtimeCall_settles (fujiGetDeviceInfo_settles reg)
  | fujiConfigVersion => exact runtimeCall_settles fujiConfigVersion_settles
  | ptpipFujiConnectHandshake deviceName =>
    exact runtimeCall_settles (ptpipFujiConnectHandshake_settles deviceName)
  | ptpGetPartialExif handle => exact runtimeCall_settles (ptpGetPartialExifReturns_settles handle)
  | fujiDownloadFileEx fuel handle info =>
    exact runtimeCall_settles (fujiDownloadFileEx_settles fuel handle info)
  | appPtpDownloadFile fuel oi objectId maxChunkSize index =>
    exact runtimeCall_settles (appPtpDownloadFile_settles fuel oi objectId maxChunkSize index)
  | onRequestThumbnail file => exact hresult (onRequestThumbnail_settles file)
  | onRequestLiveviewFrame fuel data handle =>
    exact hresult (onRequestLiveviewFrame_settles fuel data handle)
  | fujiProcessRaf lib fp userFp inputRafPath outputPath =>
    exact runtimeCall_settles (fujiProcessRaf_settles lib fp userFp inputRafPath outputPath)
  | fujiusbDownloadBackup unsupported =>
    exact runtimeCall_settles (fujiusbDownloadBackup_settles unsupported)
  | fujiGetBatteryPercent value => exact runtimeCall_settles (fujiGetBatteryPercent_settles value)
  | ptpReportError reason code => exact ptpReportError_settles reason code

/-- An operation takes what it takes, whatever is called before it. -/
theorem reenter_custody (n : ℕ) (op : LockOp) (t : Unit) (b : ℤ) (hb : 0 ≤ b)
    (hop : ∀ r, 0 ≤ b + lockWeight ⟨op, r⟩) :
    Custody lockWeight b (reenter n op t) fun r d => d = b + lockWeight ⟨op, r.1⟩ := by
  have hanswer {b : ℤ} {op : LockOp} (hb : 0 ≤ b) (hop : ∀ r, 0 ≤ b + lockWeight ⟨op, r⟩) :
      Custody lockWeight b (do
        let r : op.Ret ← call op
        return (r, ()) : CallM (op.Ret × Unit)) fun r d => d = b + lockWeight ⟨op, r.1⟩ :=
    custody_call_bind hb fun r => custody_pure (hop r) rfl
  induction n generalizing op b with
  | zero => exact hanswer hb hop
  | succ n ih =>
    have hcalls (calls : List (LockCall × ModulePriv)) :
        Settles lockWeight 0 (callAll (reenter n) calls) := by
      induction calls with
      | nil => exact custody_pure le_rfl rfl
      | cons c calls ihcalls =>
        refine Settles.bind ?_ le_rfl fun _ => ihcalls
        exact custody_interp (fun op _ b => ih op b) (c.1.program_settles c.2) ()
    refine custody_free_bind hb (fun _ => rfl) fun calls => ?_
    exact (hcalls calls).bind hb fun _ => hanswer hb hop

/-- **The mutex is left as it was found.**  No function releases it below the depth at which it is
entered, and each returns at this depth, whatever the answers are and whichever of the functions are
called within it. -/
theorem lockCall_keepsDepth (c : LockCall) (n : ℕ) (mod : ModulePriv) :
    KeepsDepth (c.outermost n mod) :=
  keepsDepth_of_settles (custody_interp (reenter_custody n) (c.program_settles mod) ())

end Fuji
