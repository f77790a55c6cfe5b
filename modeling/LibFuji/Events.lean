/-
Polling the camera for events (`fuji_get_events` in `fuji.c`, with
`app_queue_file_for_download` of `module.c`).

The events are walked in the payload buffer itself, and some of them start transactions,
which replace the buffer.  Up to the first such event the walk is that of a list
(`eventLoop_quiet`); behind it, what is walked is whatever the camera has answered.

`fujiGetEvents_applied_iff` draws the line: every event received is applied, whatever the
camera answers, just if no event that starts a transaction has another event slot behind it.
-/
import LibFuji.Assignments
import LibFuji.Ptp

namespace Fuji

open ByteCodec Interaction

/-! ### The code -/

/-- `enum FujiCameraStates`: the camera wants to send images it has selected. -/
def fujiMultipleTransfer : UInt32 := 1

/-- `LIVE_STORAGE_DEVICE_NAME`. -/
def liveStorageDeviceName : String := "live"

/-- The storage device of the camera. -/
def PtpRuntime.storageInfo (s : PtpRuntime) : StorageInfo :=
  ⟨false, s.numObjects, some (if s.sortByOldestFirst then .oldestFirst else .newestFirst)⟩

/-- `app_update_storage_info`. -/
def appUpdateStorageInfo : PtpM Unit := do
  let s ← get
  if s.cameraState = fujiMultipleTransfer then
    ask (.setStorageInfo liveStorageDeviceName ⟨true, 1, none⟩)
  else ask (.setStorageInfo s.storageDeviceName s.storageInfo)

/-- `app_queue_file_for_download`. -/
def appQueueFileForDownload (objectId : Int) : PtpM Rc := do
  let r ← transact (.getObjectInfo objectId)
  modify fun s => { s with currentDownloadingOi := r.out }
  if r.rc = .checkCode then return .ok
  else if r.rc ≠ .ok then return r.rc
  else
    let s ← get
    modify fun s => { s with nItemsDownloaded := s.nItemsDownloaded + 1 }
    let _ ← ask (.addFileMetadata s.nItemsDownloaded s.currentDownloadingOi)
    return .ok

/-- `a->data[i]`. -/
def handleAt (a : List UInt32) (i : ℕ) : PtpM UInt32 :=
  match a[i]? with
  | some handle => pure handle
  | none => ask (.outOfArray i)

/-- The loop over the handles of the images in the camera, `n` times more.  It takes the
handle at the index `i` of the event every time. -/
def queueFreeSDRAMImages (a : List UInt32) (i : ℕ) : ℕ → PtpM Rc
  | 0 => return .ok
  | n + 1 => do
    let handle ← handleAt a i
    let rc ← appQueueFileForDownload (toCInt handle.toNat)
    if rc ≠ .ok then return rc else queueFreeSDRAMImages a i n

/-- `fuji_get_events` where the camera wants to send images. -/
def onMultipleTransfer : PtpM Rc := do
  appUpdateStorageInfo
  appQueueFileForDownload 1

/-- `fuji_get_events` where images wait in the camera, for the event at the index `i`. -/
def onFreeSDRAMImages (i : ℕ) : PtpM Rc := do
  let r ← transact (.getObjectHandles (-1) 0 0)
  let a : List UInt32 := r.out
  if r.rc ≠ .ok then return r.rc
  else queueFreeSDRAMImages a i (toCInt a.length).toNat

/-- The body of the loop of `fuji_get_events`, for the event at the index `i`. -/
def onEvent (i : ℕ) (code : UInt16) (value : UInt32) : PtpM Rc := do
  if code.toNat = dpcSelectedImgsMode then
    modify fun fuji => { fuji with selectedImgsMode := value }
    return .ok
  else if code.toNat = dpcObjectCount then
    modify fun fuji => { fuji with numObjects := value }
    return .ok
  else if code.toNat = dpcCameraState then
    modify fun fuji => { fuji with cameraState := value }
    if value = fujiMultipleTransfer then onMultipleTransfer else return .ok
  else if code.toNat = dpcFreeSDRAMImages then
    let fuji ← get
    if fuji.transport = .wirelessTether then onFreeSDRAMImages i else return .ok
  else return .ok

/-- The loop of `fuji_get_events` that logs the events, from the index `i` on, `n` times more.
The length is a 16-bit number, so 65536 times are enough. -/
def logLoop : ℕ → ℕ → PtpM Unit
  | 0, _ => return ()
  | n + 1, i => do
    let length ← readU16 0
    if i < length.toNat then
      let _ ← readU16 (2 + 6 * i)
      let _ ← readU32 (4 + 6 * i)
      logLoop n (i + 1)
    else return ()

/-- The loop of `fuji_get_events` that handles them. -/
def eventLoop : ℕ → ℕ → PtpM Rc
  | 0, _ => return .ok
  | n + 1, i => do
    let length ← readU16 0
    if i < length.toNat then
      let code ← readU16 (2 + 6 * i)
      let value ← readU32 (4 + 6 * i)
      let rc ← onEvent i code value
      if rc ≠ .ok then return rc else eventLoop n (i + 1)
    else return .ok

/-- `fuji_get_events`. -/
def fujiGetEvents : PtpM Rc := do
  ptpMutexLock
  let r ← transact (.getPropValue dpcEventsList)
  if r.rc = .checkCode then
    ptpMutexUnlock
    return .ok
  else if r.rc ≠ .ok then
    ptpMutexUnlock
    return r.rc
  else
    let _ ← readU16 0
    logLoop 65536 0
    let rc ← eventLoop 65536 0
    ptpMutexUnlock
    return rc

/-! ### Event lists -/

/-- `struct PtpFujiEventsEntry`. -/
structure FujiEvent where
  code : UInt16
  value : UInt32
  deriving DecidableEq

/-- The bytes of an event. -/
def FujiEvent.encode (e : FujiEvent) : List UInt8 :=
  leBytes 2 e.code.toNat ++ leBytes 4 e.value.toNat

/-- A list of events that a `struct PtpFujiEvents` can hold. -/
structure EventList where
  events : List FujiEvent
  length_lt : events.length < 2 ^ 16

/-- `struct PtpFujiEvents`. -/
def EventList.encode (E : EventList) : List UInt8 :=
  leBytes 2 E.events.length ++ E.events.flatMap FujiEvent.encode

/-- The value of the last event of a code. -/
def lastValue (E : List FujiEvent) (code : ℕ) : Option UInt32 :=
  Assignments.last (E.map fun e => (e.code.toNat, e.value)) code

/-- Every event has been applied, in order. -/
structure Applied (E : List FujiEvent) (s s' : PtpRuntime) : Prop where
  cameraState : s'.cameraState = (lastValue E dpcCameraState).getD s.cameraState
  numObjects : s'.numObjects = (lastValue E dpcObjectCount).getD s.numObjects
  selectedImgsMode :
    s'.selectedImgsMode = (lastValue E dpcSelectedImgsMode).getD s.selectedImgsMode

/-- Does an event start a transaction? -/
def FujiEvent.Triggers (t : FujiTransport) (e : FujiEvent) : Prop :=
  (e.code.toNat = dpcCameraState ∧ e.value = fujiMultipleTransfer) ∨
    (e.code.toNat = dpcFreeSDRAMImages ∧ t = .wirelessTether)

instance (t : FujiTransport) (e : FujiEvent) : Decidable (e.Triggers t) := by
  unfold FujiEvent.Triggers
  infer_instance

/-- What an event does to the fields. -/
def PtpRuntime.apply (s : PtpRuntime) (e : FujiEvent) : PtpRuntime :=
  { s with
    selectedImgsMode := if e.code.toNat = dpcSelectedImgsMode then e.value else s.selectedImgsMode
    numObjects := if e.code.toNat = dpcObjectCount then e.value else s.numObjects
    cameraState := if e.code.toNat = dpcCameraState then e.value else s.cameraState }

section Apply

variable {E : List FujiEvent} {e : FujiEvent} {s s' : PtpRuntime}

@[simp] theorem apply_payload : (s.apply e).payload = s.payload := rfl

@[simp] theorem apply_transport : (s.apply e).transport = s.transport := rfl

theorem lastValue_cons (code : ℕ) : lastValue (e :: E) code
    = (lastValue E code).or (if e.code.toNat = code then some e.value else none) := rfl

theorem Applied.cons (h : Applied E (s.apply e) s') : Applied (e :: E) s s' := by
  have hor (o : Option UInt32) (c : Prop) [Decidable c] (v w : UInt32) :
      o.getD (if c then v else w) = (o.or (if c then some v else none)).getD w := by
    by_cases hc : c <;> cases o <;> simp [hc]
  refine ⟨h.cameraState.trans ?_, h.numObjects.trans ?_, h.selectedImgsMode.trans ?_⟩
  all_goals
    rw [lastValue_cons]
    exact hor _ _ _ _

theorem applied_foldl (E : List FujiEvent) (s : PtpRuntime) : Applied E s (E.foldl .apply s) := by
  induction E generalizing s with
  | nil => exact ⟨rfl, rfl, rfl⟩
  | cons e E ih => exact (ih (s.apply e)).cons

@[simp] theorem foldl_apply_payload : (E.foldl .apply s).payload = s.payload := by
  induction E generalizing s with
  | nil => rfl
  | cons e E ih => exact ih

@[simp] theorem foldl_apply_transport : (E.foldl .apply s).transport = s.transport := by
  induction E generalizing s with
  | nil => rfl
  | cons e E ih => exact ih

end Apply

/-! ### Reading an event list -/

section Read

variable {E : EventList} {rest : List UInt8} {s : PtpRuntime}

theorem FujiEvent.encode_length (e : FujiEvent) : e.encode.length = 6 := by
  simp [FujiEvent.encode]

theorem readU16_length (hs : s.payload = E.encode ++ rest) :
    readU16 0 s = .ret (UInt16.ofNat E.events.length, s) := by
  refine readU16_eq ?_
  have h := readLe_mid [] (leBytes 2 E.events.length) (E.events.flatMap FujiEvent.encode ++ rest)
  rw [leBytes_length, leNat_leBytes, show 256 ^ 2 = 2 ^ 16 from rfl,
    Nat.mod_eq_of_lt E.length_lt] at h
  rw [hs, EventList.encode]
  simpa using h

theorem readU16_code (hs : s.payload = E.encode ++ rest) {i : ℕ} (hi : i < E.events.length) :
    readU16 (2 + 6 * i) s = .ret (E.events[i].code, s) := by
  have h := readLe_record FujiEvent.encode_length (leBytes 2 E.events.length) rest hi (p := [])
    (m := leBytes 2 E.events[i].code.toNat) (q := leBytes 4 E.events[i].value.toNat) rfl
  rw [leBytes_length, leBytes_length, leNat_leBytes, show 256 ^ 2 = 2 ^ 16 from rfl,
    Nat.mod_eq_of_lt E.events[i].code.toNat_lt] at h
  rw [readU16_eq (by rw [hs]; exact h), UInt16.ofNat_toNat]

theorem readU32_value (hs : s.payload = E.encode ++ rest) {i : ℕ} (hi : i < E.events.length) :
    readU32 (4 + 6 * i) s = .ret (E.events[i].value, s) := by
  have h := readLe_record FujiEvent.encode_length (leBytes 2 E.events.length) rest hi
    (p := leBytes 2 E.events[i].code.toNat) (m := leBytes 4 E.events[i].value.toNat) (q := [])
    (by simp [FujiEvent.encode])
  rw [leBytes_length, leBytes_length, leBytes_length, leNat_leBytes,
    show 256 ^ 4 = 2 ^ 32 from rfl, Nat.mod_eq_of_lt E.events[i].value.toNat_lt] at h
  rw [show 4 + 6 * i = 2 + 6 * i + 2 by ring, readU32_eq (by rw [hs]; exact h),
    UInt32.ofNat_toNat]

theorem toNat_length (E : EventList) :
    (UInt16.ofNat E.events.length).toNat = E.events.length :=
  UInt16.toNat_ofNat_of_lt' E.length_lt

/-- Logging a list changes nothing. -/
theorem logLoop_eq (hs : s.payload = E.encode ++ rest) (n i : ℕ) :
    logLoop n i s = .ret ((), s) := by
  induction n generalizing i with
  | zero => rfl
  | succ n ih =>
    rw [logLoop, bind_of_ret (readU16_length hs), toNat_length]
    by_cases hi : i < E.events.length
    · rw [if_pos hi, bind_of_ret (readU16_code hs hi), bind_of_ret (readU32_value hs hi), ih]
    · rw [if_neg hi]
      rfl

end Read

/-! ### Events that start no transaction -/

section Quiet

variable {E : EventList} {rest : List UInt8} {s : PtpRuntime} {e : FujiEvent}

theorem onEvent_quiet (ht : ¬ e.Triggers s.transport) (i : ℕ) :
    onEvent i e.code e.value s = .ret (.ok, s.apply e) := by
  obtain ⟨hstate, hfree⟩ := not_or.mp ht
  rw [onEvent]
  by_cases h1 : e.code.toNat = dpcSelectedImgsMode
  · rw [if_pos h1, PtpRuntime.apply, h1]
    rfl
  rw [if_neg h1]
  by_cases h2 : e.code.toNat = dpcObjectCount
  · rw [if_pos h2, PtpRuntime.apply, h2]
    rfl
  rw [if_neg h2]
  by_cases h3 : e.code.toNat = dpcCameraState
  · rw [if_pos h3, if_neg fun hv => hstate ⟨h3, hv⟩, PtpRuntime.apply, h3]
    rfl
  rw [if_neg h3]
  -- the other events set no field
  have happly : s.apply e = s := by
    rw [PtpRuntime.apply, if_neg h1, if_neg h2, if_neg h3]
  rw [happly]
  by_cases h4 : e.code.toNat = dpcFreeSDRAMImages
  · rw [if_pos h4, bind_of_ret (m := get) (a := s) rfl, if_neg fun ht => hfree ⟨h4, ht⟩]
    rfl
  · rw [if_neg h4]
    rfl

/-- One step of the walk of a list. -/
theorem eventLoop_step (hs : s.payload = E.encode ++ rest) {i : ℕ} (hi : i < E.events.length)
    (n : ℕ) : eventLoop (n + 1) i s = (do
      let rc ← onEvent i E.events[i].code E.events[i].value
      if rc ≠ Rc.ok then return rc else eventLoop n (i + 1)) s := by
  rw [eventLoop, bind_of_ret (readU16_length hs), toNat_length, if_pos hi,
    bind_of_ret (readU16_code hs hi), bind_of_ret (readU32_value hs hi)]

theorem eventLoop_end (hs : s.payload = E.encode ++ rest) {i : ℕ} (hi : E.events.length ≤ i)
    (n : ℕ) : eventLoop n i s = .ret (.ok, s) := by
  cases n with
  | zero => rfl
  | succ n =>
    rw [eventLoop, bind_of_ret (readU16_length hs), toNat_length, if_neg (by omega)]
    rfl

/-- **Up to an event that starts a transaction, the walk is that of a list.** -/
theorem eventLoop_quiet (hs : s.payload = E.encode ++ rest) {i k : ℕ}
    (hik : i + k ≤ E.events.length)
    (hquiet : ∀ j (hj : j < E.events.length), i ≤ j → j < i + k →
      ¬ E.events[j].Triggers s.transport) (n : ℕ) :
    eventLoop (n + k) i s
      = eventLoop n (i + k) (((E.events.drop i).take k).foldl .apply s) := by
  induction k generalizing i s with
  | zero => simp
  | succ k ih =>
    have hi : i < E.events.length := by omega
    have hstep := ih (i := i + 1) (s := s.apply E.events[i]) hs (by omega)
      fun j hj hij hjk => hquiet j hj (by omega) (by omega)
    rw [← add_assoc, eventLoop_step hs hi,
      bind_of_ret (onEvent_quiet (hquiet i hi le_rfl (by omega)) i), if_neg (by simp), hstep,
      List.drop_eq_getElem_cons hi, List.take_succ_cons, List.foldl_cons,
      show i + 1 + k = i + (k + 1) by ring]

end Quiet

/-! ### Events that start transactions -/

/-- Operations of a poll. -/
def Op.Polling : Op → Prop
  | .ptp (.getPropValue _) => True
  | .ptp (.getObjectInfo _) => True
  | .ptp (.getObjectHandles _ _ _) => True
  | .mutexLock => True
  | .mutexUnlock => True
  | .outOfBounds _ => True
  | .outOfArray _ => True
  | .setStorageInfo _ _ => True
  | .addFileMetadata _ _ => True
  | _ => False

/-- Two states agree on the transport and on the fields that events set. -/
structure SameFields (s s' : PtpRuntime) : Prop where
  transport : s'.transport = s.transport
  cameraState : s'.cameraState = s.cameraState
  numObjects : s'.numObjects = s.numObjects
  selectedImgsMode : s'.selectedImgsMode = s.selectedImgsMode

/-- Two states agree on the transport. -/
def SameTransport (s s' : PtpRuntime) : Prop := s'.transport = s.transport

instance : Std.Refl SameTransport := ⟨fun _ => rfl⟩

instance : IsTrans PtpRuntime SameTransport := ⟨fun _ _ _ h h' => h'.trans h⟩

instance : Std.Refl SameFields := ⟨fun _ => ⟨rfl, rfl, rfl, rfl⟩⟩

instance : IsTrans PtpRuntime SameFields := ⟨fun _ _ _ h h' =>
  ⟨h'.transport.trans h.transport, h'.cameraState.trans h.cameraState,
    h'.numObjects.trans h.numObjects, h'.selectedImgsMode.trans h.selectedImgsMode⟩⟩

theorem Applied.congr {E : List FujiEvent} {s s' s'' : PtpRuntime} (h : Applied E s s')
    (hsame : SameFields s' s'') : Applied E s s'' :=
  ⟨hsame.cameraState.trans h.cameraState, hsame.numObjects.trans h.numObjects,
    hsame.selectedImgsMode.trans h.selectedImgsMode⟩

/-- What follows an event that starts transactions. -/
def reaction (i : ℕ) (e : FujiEvent) : PtpM Rc :=
  if e.code.toNat = dpcCameraState then onMultipleTransfer else onFreeSDRAMImages i

section React

variable {s : PtpRuntime} {e : FujiEvent}

theorem onEvent_triggered (ht : e.Triggers s.transport) (i : ℕ) :
    onEvent i e.code e.value s = reaction i e (s.apply e) := by
  rw [onEvent, reaction]
  rcases ht with ⟨hcode, hv⟩ | ⟨hcode, ht⟩
  · rw [hcode, if_neg (by decide), if_neg (by decide), if_pos rfl, if_pos rfl, if_pos hv,
      PtpRuntime.apply, hcode]
    rfl
  · rw [hcode, if_neg (by decide), if_neg (by decide), if_neg (by decide), if_pos rfl,
      bind_of_ret (m := get) (a := s) rfl, if_pos ht, if_neg (by decide), PtpRuntime.apply, hcode]
    rfl

/-- Relations that hold of the operations of a poll and of what it notes about files. -/
class NotesFiles (P : PtpRuntime → History → PtpRuntime → Prop) : Prop
    extends Transacts Op.Polling P where
  noteObject : ∀ s oi, P s [] { s with currentDownloadingOi := oi }
  countItem : ∀ s n, P s [] { s with nItemsDownloaded := n }

/-- Relations that hold besides of what an event sets. -/
class AppliesEvents (P : PtpRuntime → History → PtpRuntime → Prop) : Prop extends NotesFiles P where
  apply : ∀ s e, P s [] (s.apply e)

instance : NotesFiles (Within Op.Polling SameFields) where
  ask s op r hop _ := ⟨by simpa using hop, Std.Refl.refl s⟩
  transact s c r hc := ⟨by simpa using hc, rfl, rfl, rfl, rfl⟩
  noteObject s oi := ⟨by simp, rfl, rfl, rfl, rfl⟩
  countItem s n := ⟨by simp, rfl, rfl, rfl, rfl⟩

instance : AppliesEvents (Within Op.Polling SameTransport) where
  ask s op r hop _ := ⟨by simpa using hop, rfl⟩
  transact s c r hc := ⟨by simpa using hc, rfl⟩
  noteObject s oi := ⟨by simp, rfl⟩
  countItem s n := ⟨by simp, rfl⟩
  apply s e := ⟨by simp, apply_transport⟩

section Notes

variable {P : PtpRuntime → History → PtpRuntime → Prop} [NotesFiles P]

theorem appQueueFileForDownload_obeys (objectId : Int) :
    Obeys P (appQueueFileForDownload objectId) := by
  refine obeys_bind (obeys_transact (A := Op.Polling) trivial) fun r => ?_
  refine obeys_bind (obeys_modify fun s => NotesFiles.noteObject s _) fun _ => ?_
  refine obeys_ite (obeys_pure _) (obeys_ite (obeys_pure _) ?_)
  refine obeys_bind obeys_get fun s => ?_
  refine obeys_bind (obeys_modify fun s => NotesFiles.countItem s _) fun _ => ?_
  exact obeys_bind (obeys_ask (A := Op.Polling) trivial (by simp)) fun _ => obeys_pure _

theorem queueFreeSDRAMImages_obeys (a : List UInt32) (i n : ℕ) :
    Obeys P (queueFreeSDRAMImages a i n) := by
  induction n with
  | zero => exact obeys_pure _
  | succ n ih =>
    refine obeys_bind ?_ fun handle => ?_
    · rw [handleAt]
      cases a[i]? with
      | none => exact obeys_ask (A := Op.Polling) trivial (by simp)
      | some handle => exact obeys_pure handle
    · refine obeys_bind (appQueueFileForDownload_obeys _) fun rc => ?_
      exact obeys_ite (obeys_pure _) ih

theorem appUpdateStorageInfo_obeys : Obeys P appUpdateStorageInfo :=
  obeys_bind obeys_get fun _ =>
    obeys_ite (obeys_ask (A := Op.Polling) trivial (by simp))
      (obeys_ask (A := Op.Polling) trivial (by simp))

theorem reaction_obeys (i : ℕ) (e : FujiEvent) : Obeys P (reaction i e) := by
  refine obeys_ite ?_ ?_
  · exact obeys_bind appUpdateStorageInfo_obeys fun _ => appQueueFileForDownload_obeys 1
  · refine obeys_bind (obeys_transact (A := Op.Polling) trivial) fun r => ?_
    exact obeys_ite (obeys_pure _) (queueFreeSDRAMImages_obeys _ i _)

end Notes

theorem appUpdateStorageInfo_run (s : PtpRuntime) : ∃ h, Exec appUpdateStorageInfo s h () s := by
  by_cases hs : s.cameraState = fujiMultipleTransfer
  · exact ⟨_, exec_bind exec_get (exec_ite_pos hs
      (@exec_ask s (.setStorageInfo liveStorageDeviceName ⟨true, 1, none⟩) ()))⟩
  · exact ⟨_, exec_bind exec_get
      (exec_ite_neg hs (@exec_ask s (.setStorageInfo s.storageDeviceName s.storageInfo) ()))⟩

/-- The reactions may leave any payload behind. -/
theorem reaction_run (i : ℕ) (e : FujiEvent) (s : PtpRuntime) (payload : List UInt8) :
    ∃ h s', Exec (reaction i e) s h .ok s' ∧ s'.payload = payload := by
  rw [reaction]
  split_ifs
  · obtain ⟨h, hupdate⟩ := appUpdateStorageInfo_run s
    exact ⟨_, _, exec_bind hupdate <| exec_bind (exec_transact ⟨.ok, payload, ObjectInfo.zero⟩) <|
      exec_bind (exec_modify _) <| exec_ite_neg (by simp) <| exec_ite_neg (by simp) <|
      exec_bind exec_get <| exec_bind (exec_modify _) <| exec_bind (exec_ask ()) <|
      exec_pure _, rfl⟩
  · let r : Resp (.getObjectHandles (-1) 0 0) := ⟨.ok, payload, []⟩
    have hzero : (toCInt ([] : List UInt32).length).toNat = 0 := by decide
    have hnone : Exec (queueFreeSDRAMImages [] i (toCInt ([] : List UInt32).length).toNat)
        (s.answered payload) [] .ok (s.answered payload) := by
      rw [hzero]
      exact exec_pure _
    exact ⟨_, _, exec_bind (exec_transact r) (exec_ite_neg (by simp [r]) hnone), rfl⟩

/-- What the body of the loop does to the fields. -/
theorem onEvent_spec {i : ℕ} {h : History} {rc : Rc} {s' : PtpRuntime}
    (hrun : Exec (onEvent i e.code e.value) s h rc s') :
    (∀ x ∈ h, x.1.Polling) ∧ SameFields (s.apply e) s' := by
  rw [Exec] at hrun
  by_cases ht : e.Triggers s.transport
  · rw [onEvent_triggered ht] at hrun
    exact reaction_obeys (P := Within Op.Polling SameFields) i e _ h rc s' hrun
  · rw [onEvent_quiet ht] at hrun
    cases hrun
    exact ⟨by simp, Std.Refl.refl (r := SameFields) _⟩

section Applies

variable {P : PtpRuntime → History → PtpRuntime → Prop} [AppliesEvents P]

theorem onEvent_obeys (i : ℕ) (code : UInt16) (value : UInt32) :
    Obeys P (onEvent i code value) := by
  intro s h rc s' hrun
  rw [Exec] at hrun
  refine Composes.append (h := []) (AppliesEvents.apply s ⟨code, value⟩) ?_
  by_cases ht : FujiEvent.Triggers s.transport ⟨code, value⟩
  · rw [onEvent_triggered (e := ⟨code, value⟩) ht] at hrun
    exact reaction_obeys i _ _ h rc s' hrun
  · rw [onEvent_quiet (e := ⟨code, value⟩) ht] at hrun
    cases hrun
    exact Composes.nil _

theorem logLoop_obeys (n i : ℕ) : Obeys P (logLoop n i) := by
  have hA (of : ℕ) : Op.Polling (.outOfBounds of) := trivial
  induction n generalizing i with
  | zero => exact obeys_pure _
  | succ n ih =>
    refine obeys_bind (obeys_readU16 hA 0) fun length => ?_
    refine obeys_ite ?_ (obeys_pure _)
    refine obeys_bind (obeys_readU16 hA _) fun _ => ?_
    exact obeys_bind (obeys_readU32 hA _) fun _ => ih (i + 1)

theorem eventLoop_obeys (n i : ℕ) : Obeys P (eventLoop n i) := by
  have hA (of : ℕ) : Op.Polling (.outOfBounds of) := trivial
  induction n generalizing i with
  | zero => exact obeys_pure _
  | succ n ih =>
    refine obeys_bind (obeys_readU16 hA 0) fun length => ?_
    refine obeys_ite ?_ (obeys_pure _)
    refine obeys_bind (obeys_readU16 hA _) fun code => ?_
    refine obeys_bind (obeys_readU32 hA _) fun value => ?_
    refine obeys_bind (onEvent_obeys i code value) fun rc => ?_
    exact obeys_ite (obeys_pure _) (ih (i + 1))

/-- What a poll obeys: it is made of reads, notes about files, and the events. -/
theorem fujiGetEvents_obeys : Obeys P fujiGetEvents := by
  have hlock : Obeys P ptpMutexLock := obeys_ask (A := Op.Polling) trivial (by simp)
  have hunlock : Obeys P ptpMutexUnlock := obeys_ask (A := Op.Polling) trivial (by simp)
  have hA (of : ℕ) : Op.Polling (.outOfBounds of) := trivial
  refine obeys_bind hlock fun _ => ?_
  refine obeys_bind (obeys_transact (A := Op.Polling) trivial) fun r => ?_
  refine obeys_ite (obeys_bind hunlock fun _ => obeys_pure _) ?_
  refine obeys_ite (obeys_bind hunlock fun _ => obeys_pure _) ?_
  refine obeys_bind (obeys_readU16 hA 0) fun _ => ?_
  refine obeys_bind (logLoop_obeys 65536 0) fun _ => ?_
  refine obeys_bind (eventLoop_obeys 65536 0) fun rc => ?_
  exact obeys_bind hunlock fun _ => obeys_pure _

end Applies

/-- A poll is made of reads. -/
theorem fujiGetEvents_respects : Respects Op.Polling SameTransport fujiGetEvents :=
  fujiGetEvents_obeys (P := Within Op.Polling SameTransport)

section Issues

variable {A : Op → Prop}

/-! The parts of a poll issue few operations each. -/

theorem issues_appQueueFileForDownload {objectId : Int} (hinfo : A (.ptp (.getObjectInfo objectId)))
    (hadd : ∀ n oi, A (.addFileMetadata n oi)) : Issues A (appQueueFileForDownload objectId) := by
  refine issues_bind (issues_transact hinfo) fun r => issues_bind (issues_modify _) fun _ => ?_
  refine issues_ite (issues_pure _) (issues_ite (issues_pure _) ?_)
  refine issues_bind issues_get fun s => issues_bind (issues_modify _) fun _ => ?_
  exact issues_bind (issues_ask (hadd _ _)) fun _ => issues_pure _

theorem issues_handleAt {a : List UInt32} {i : ℕ} (houtside : A (.outOfArray i)) :
    Issues A (handleAt a i) := by
  rw [handleAt]
  cases a[i]? with
  | none => exact issues_ask houtside
  | some handle => exact issues_pure handle

theorem issues_appUpdateStorageInfo (hset : ∀ name info, A (.setStorageInfo name info)) :
    Issues A appUpdateStorageInfo :=
  issues_bind issues_get fun _ => issues_ite (issues_ask (hset _ _)) (issues_ask (hset _ _))

theorem issues_onMultipleTransfer (hset : ∀ name info, A (.setStorageInfo name info))
    (hinfo : A (.ptp (.getObjectInfo 1))) (hadd : ∀ n oi, A (.addFileMetadata n oi)) :
    Issues A onMultipleTransfer :=
  issues_bind (issues_appUpdateStorageInfo hset) fun _ => issues_appQueueFileForDownload hinfo hadd

theorem queueFreeSDRAMImages_issues (a : List UInt32) (i n : ℕ) :
    Issues Op.Polling (queueFreeSDRAMImages a i n) := by
  induction n with
  | zero => exact issues_pure _
  | succ n ih =>
    refine issues_bind (issues_handleAt trivial) fun handle => ?_
    refine issues_bind (issues_appQueueFileForDownload trivial fun _ _ => trivial) fun rc => ?_
    exact issues_ite (issues_pure _) ih

theorem onEvent_issues (i : ℕ) (code : UInt16) (value : UInt32) :
    Issues Op.Polling (onEvent i code value) := by
  have hset (f : PtpRuntime → PtpRuntime) :
      Issues Op.Polling (do modify f; return .ok : PtpM Rc) :=
    issues_bind (issues_modify f) fun _ => issues_pure _
  refine issues_ite (hset _) (issues_ite (hset _) (issues_ite ?_ (issues_ite ?_ (issues_pure _))))
  · refine issues_bind (issues_modify _) fun _ => issues_ite ?_ (issues_pure _)
    exact issues_onMultipleTransfer (fun _ _ => trivial) trivial fun _ _ => trivial
  · refine issues_bind issues_get fun fuji => issues_ite ?_ (issues_pure _)
    refine issues_bind (issues_transact trivial) fun r => issues_ite (issues_pure _) ?_
    exact queueFreeSDRAMImages_issues _ i _

theorem issues_logLoop (hA : ∀ of, A (.outOfBounds of)) (n i : ℕ) :
    Issues A (logLoop n i) := by
  induction n generalizing i with
  | zero => exact issues_pure _
  | succ n ih =>
    refine issues_bind (issues_readU16 hA 0) fun length => issues_ite ?_ (issues_pure _)
    refine issues_bind (issues_readU16 hA _) fun _ => ?_
    exact issues_bind (issues_readU32 hA _) fun _ => ih (i + 1)

/-- A poll issues reads only, also where it does not come to its end. -/
theorem fujiGetEvents_issues : Issues Op.Polling fujiGetEvents := by
  have hA (of : ℕ) : Op.Polling (.outOfBounds of) := trivial
  have hloop (n i : ℕ) : Issues Op.Polling (eventLoop n i) := by
    induction n generalizing i with
    | zero => exact issues_pure _
    | succ n ih =>
      refine issues_bind (issues_readU16 hA 0) fun length => issues_ite ?_ (issues_pure _)
      refine issues_bind (issues_readU16 hA _) fun code => ?_
      refine issues_bind (issues_readU32 hA _) fun value => ?_
      exact issues_bind (onEvent_issues i code value) fun rc => issues_ite (issues_pure _) (ih (i + 1))
  have hunlock (rc : Rc) : Issues Op.Polling (do ptpMutexUnlock; return rc : PtpM Rc) :=
    issues_bind (issues_ask trivial) fun _ => issues_pure _
  refine issues_bind (issues_ask trivial) fun _ => issues_bind (issues_transact trivial) fun r => ?_
  refine issues_ite (hunlock _) (issues_ite (hunlock _) ?_)
  refine issues_bind (issues_readU16 hA 0) fun _ => issues_bind (issues_logLoop hA 65536 0) fun _ => ?_
  exact issues_bind (hloop 65536 0) fun rc => hunlock rc

end Issues

/-- A camera may have no events. -/
theorem fujiGetEvents_run_none (s : PtpRuntime) :
    ∃ h, Exec fujiGetEvents s h .ok (s.answered []) ∧ ∀ e ∈ h, e.1.Polling := by
  have hrun : Exec fujiGetEvents s _ .ok (s.answered []) :=
    exec_bind (exec_ask ()) <| exec_bind (exec_transact ⟨.checkCode, [], ()⟩) <|
      exec_ite_pos rfl <| exec_bind (exec_ask ()) (exec_pure _)
  exact ⟨_, hrun, (fujiGetEvents_respects s _ .ok _ hrun).1⟩

/-- No length reaches beyond the index 65534. -/
theorem eventLoop_last {i : ℕ} (hi : 65535 ≤ i) (n : ℕ) :
    Respects Op.Polling SameFields (eventLoop n i) := by
  cases n with
  | zero => exact respects_pure _
  | succ n =>
    have hA (of : ℕ) : Op.Polling (.outOfBounds of) := trivial
    refine respects_bind (obeys_readU16 hA 0) fun length => ?_
    have hlen := length.toNat_lt
    rw [if_neg (by omega)]
    exact respects_pure _

end React

/-! ### What a poll applies -/

section Poll

variable {E : EventList} {rest : List UInt8} {s : PtpRuntime}

/-- The camera has answered the poll with an event list. -/
def Polled (E : EventList) (rest : List UInt8) (h : History) : Prop :=
  ∃ a t, h = ⟨.mutexLock, a⟩ ::
    ⟨.ptp (.getPropValue dpcEventsList), ⟨.ok, E.encode ++ rest, ()⟩⟩ :: t

/-- The walk applies the whole list if only its 65535th event may start a transaction. -/
theorem wp_eventLoop_applied (hs : s.payload = E.encode ++ rest)
    (hquiet : ∀ i (hi : i < E.events.length), i < 65534 → ¬ E.events[i].Triggers s.transport)
    (h : History) :
    wp (eventLoop 65536 0) (fun _ rc s' => rc = .ok → Applied E.events s s') h s := by
  have hlt := E.length_lt
  rcases Nat.lt_or_ge 65534 E.events.length with hlong | hshort
  -- the longest list: its last event may replace the buffer, but the walk ends behind it
  · have hlen : E.events.length = 65535 := by omega
    have hq := eventLoop_quiet hs (i := 0) (k := 65534) (by omega)
      (fun j hj _ hjk => hquiet j hj (by omega)) 2
    rw [List.drop_zero, zero_add] at hq
    have hfold : ((E.events.take 65534).foldl .apply s).apply E.events[65534]
        = E.events.foldl .apply s := by
      conv_rhs => rw [← List.take_append_drop 65534 E.events, List.drop_eq_getElem_cons hlong,
        List.drop_eq_nil_of_le (by omega)]
      rw [List.foldl_append]
      rfl
    rw [wp_congr hq, wp_congr (eventLoop_step (by simpa using hs) hlong 1), wp_bind]
    refine wp_of_exec fun t rc s₁ hrun => ?_
    have hsame := (onEvent_spec hrun).2
    rw [hfold] at hsame
    rw [wp_ite]
    refine ⟨fun hrc hok => absurd hok hrc, fun _ => ?_⟩
    refine (eventLoop_last le_rfl 1).wp fun t' rc s₂ _ hsame' _ => ?_
    exact ((applied_foldl E.events s).congr hsame).congr hsame'
  · have hq := eventLoop_quiet hs (i := 0) (k := E.events.length) (by omega)
      (fun j hj _ hjk => hquiet j hj (by omega)) (65536 - E.events.length)
    rw [List.drop_zero, zero_add, List.take_length, Nat.sub_add_cancel (by omega),
      eventLoop_end (by simpa using hs) le_rfl] at hq
    rw [wp, hq]
    exact fun _ => applied_foldl E.events s

theorem fujiGetEvents_applied
    (hquiet : ∀ i (hi : i < E.events.length), i < 65534 → ¬ E.events[i].Triggers s.transport)
    {h : History} {s' : PtpRuntime} (hrun : Exec fujiGetEvents s h .ok s')
    (hpoll : Polled E rest h) : Applied E.events s s' := by
  suffices hwp : wp fujiGetEvents
      (fun h rc s' => rc = .ok → Polled E rest h → Applied E.events s s') [] s from
    wp_iff.mp hwp h .ok s' hrun rfl hpoll
  rw [fujiGetEvents, wp_bind, wp_ptpMutexLock]
  intro a
  rw [wp_bind, wp_transact]
  intro r
  by_cases hr : r = ⟨.ok, E.encode ++ rest, ()⟩
  -- from here on the payload is the list
  · subst hr
    have hs : (s.answered (E.encode ++ rest)).payload = E.encode ++ rest := rfl
    rw [if_neg (by simp), if_neg (by simp), wp_bind, wp_of_ret (readU16_length hs), wp_bind,
      wp_of_ret (logLoop_eq hs 65536 0), wp_bind]
    refine wp_mono (fun h rc s' happ => ?_) (wp_eventLoop_applied hs hquiet _)
    rw [wp_bind, wp_ptpMutexUnlock]
    intro _ hok _
    obtain ⟨hstate, hobjects, himgs⟩ := happ hok
    exact ⟨hstate, hobjects, himgs⟩
  · refine wp_of_exec fun t rc s' _ _ hpoll => absurd ?_ hr
    obtain ⟨b, t', heq⟩ := hpoll
    simp only [List.nil_append, List.cons_append, List.cons.injEq, Sigma.mk.injEq,
      heq_eq_eq] at heq
    exact heq.2.1.2

/-- A poll whose events start no transaction applies them. -/
theorem fujiGetEvents_run_quiet (hquiet : ∀ e ∈ E.events, ¬ e.Triggers s.transport) :
    ∃ h, Exec fujiGetEvents s h .ok (E.events.foldl .apply (s.answered E.encode)) := by
  have hs : (s.answered E.encode).payload = E.encode ++ [] := (List.append_nil _).symm
  have hlt := E.length_lt
  have hq := eventLoop_quiet hs (i := 0) (k := E.events.length) (by omega)
    (fun j hj _ _ => hquiet _ (List.getElem_mem hj)) (65536 - E.events.length)
  rw [List.drop_zero, zero_add, List.take_length, Nat.sub_add_cancel (by omega),
    eventLoop_end (foldl_apply_payload.trans hs) le_rfl] at hq
  exact ⟨_, exec_bind (exec_ask ()) <| exec_bind (exec_transact ⟨.ok, E.encode, ()⟩) <|
    exec_ite_neg (by simp) <| exec_ite_neg (by simp) <|
    exec_bind (exec_of_ret (readU16_length hs)) <|
    exec_bind (exec_of_ret (logLoop_eq hs 65536 0)) <| exec_bind (exec_of_ret hq) <|
    exec_bind (exec_ask ()) (exec_pure _)⟩

/-- A poll that has reached an event that starts a transaction walks on in its answer. -/
theorem fujiGetEvents_run {i : ℕ} (hi : i < E.events.length)
    (ht : E.events[i].Triggers s.transport)
    (hquiet : ∀ j (hj : j < E.events.length), j < i → ¬ E.events[j].Triggers s.transport)
    (payload : List UInt8) :
    ∃ s₁, s₁.payload = payload ∧ Applied (E.events.take (i + 1)) s s₁ ∧
      s₁.transport = s.transport ∧
      ∀ h s', Exec (eventLoop (65535 - i) (i + 1)) s₁ h .ok s' →
        ∃ h', Exec fujiGetEvents s h' .ok s' ∧ Polled E rest h' ∧ ∀ e ∈ h, e ∈ h' := by
  have hlt := E.length_lt
  let s₀ : PtpRuntime := s.answered (E.encode ++ rest)
  let sᵢ : PtpRuntime := (E.events.take i).foldl .apply s₀
  obtain ⟨hr, s₁, hreact, hpayload⟩ :=
    reaction_run i E.events[i] (sᵢ.apply E.events[i]) payload
  have hsame := (reaction_obeys (P := Within Op.Polling SameFields) i E.events[i] _ hr .ok s₁
    hreact).2
  have hfold : sᵢ.apply E.events[i] = (E.events.take (i + 1)).foldl .apply s₀ := by
    rw [List.take_succ_eq_append_getElem hi, List.foldl_append]
    rfl
  refine ⟨s₁, hpayload, ?_, ?_, fun h s' hrest => ?_⟩
  · rw [hfold] at hsame
    obtain ⟨hstate, hobjects, himgs⟩ := (applied_foldl (E.events.take (i + 1)) s₀).congr hsame
    exact ⟨hstate, hobjects, himgs⟩
  · simpa [sᵢ, s₀] using hsame.transport
  -- up to the event the list is walked, and its reaction leaves the rest to the answer
  have hs₀ : s₀.payload = E.encode ++ rest := rfl
  have hsᵢ : sᵢ.payload = E.encode ++ rest := foldl_apply_payload.trans hs₀
  have hq := eventLoop_quiet hs₀ (i := 0) (k := i) (by omega)
    (fun j hj _ hji => hquiet j hj (by omega)) (65535 - i + 1)
  rw [List.drop_zero, zero_add, eventLoop_step hsᵢ hi,
    show 65535 - i + 1 + i = 65536 by omega] at hq
  have hevent : Exec (onEvent i E.events[i].code E.events[i].value) sᵢ hr .ok s₁ := by
    rw [Exec, onEvent_triggered (by simpa [sᵢ, s₀] using ht)]
    exact hreact
  have hloop : Exec (eventLoop 65536 0) s₀ (hr ++ h) .ok s' := by
    rw [Exec, hq]
    exact exec_bind hevent (exec_ite_neg (by simp) hrest)
  exact ⟨_, exec_bind (exec_ask ()) <| exec_bind (exec_transact ⟨.ok, E.encode ++ rest, ()⟩) <|
    exec_ite_neg (by simp) <| exec_ite_neg (by simp) <|
    exec_bind (exec_of_ret (readU16_length hs₀)) <|
    exec_bind (exec_of_ret (logLoop_eq hs₀ 65536 0)) <| exec_bind hloop <|
    exec_bind (exec_ask ()) (exec_pure _), ⟨(), _, rfl⟩, fun e he => by simp [he]⟩

/-- A list of `i` void events and one that sets the number of objects. -/
def objectCountAt (i : ℕ) (hi : i < 65535) (value : UInt32) : EventList where
  events := List.replicate i ⟨0, 0⟩ ++ [⟨0xd222, value⟩]
  length_lt := by
    rw [List.length_append, List.length_replicate, List.length_singleton]
    omega

/-- The walk takes the last event of such a list for its own. -/
theorem eventLoop_objectCountAt {i : ℕ} (hi : i < 65535) (value : UInt32) (n : ℕ)
    (hs : s.payload = (objectCountAt i hi value).encode) :
    eventLoop (n + 1) i s = .ret (.ok, s.apply ⟨0xd222, value⟩) := by
  have hlen : (objectCountAt i hi value).events.length = i + 1 := by simp [objectCountAt]
  have hs' : s.payload = (objectCountAt i hi value).encode ++ [] := by rw [hs, List.append_nil]
  have hget : (objectCountAt i hi value).events[i] = ⟨0xd222, value⟩ := by simp [objectCountAt]
  have hquiet : ¬ FujiEvent.Triggers s.transport ⟨0xd222, value⟩ := by
    have hstate : (0xd222 : UInt16).toNat ≠ dpcCameraState := by decide
    have hfree : (0xd222 : UInt16).toNat ≠ dpcFreeSDRAMImages := by decide
    rintro (⟨hcode, -⟩ | ⟨hcode, -⟩)
    · exact hstate hcode
    · exact hfree hcode
  have hend := eventLoop_end (s := s.apply ⟨0xd222, value⟩) hs' hlen.le n
  rw [eventLoop_step hs' (by omega), hget, bind_of_ret (onEvent_quiet hquiet i), if_neg (by simp),
    hend]

/-- **When a poll applies the events it has received**: whatever the camera answers to the
transactions they start, it does just if no event but the 65535th starts one. -/
theorem fujiGetEvents_applied_iff (E : EventList) (rest : List UInt8) (s : PtpRuntime) :
    (∀ h s', Exec fujiGetEvents s h .ok s' → Polled E rest h → Applied E.events s s') ↔
      ∀ i (hi : i < E.events.length), i < 65534 → ¬ E.events[i].Triggers s.transport := by
  refine ⟨fun happ i => ?_, fun hquiet h s' hrun => fujiGetEvents_applied hquiet hrun⟩
  induction i using Nat.strong_induction_on with | _ i ih =>
  intro hi hlt ht
  -- the first event that triggers is answered with one more, which sets another number
  let value := (lastValue E.events dpcObjectCount).getD s.numObjects + 1
  obtain ⟨s₁, hpayload, -, -, hcont⟩ := fujiGetEvents_run hi ht
    (fun j hj hji => ih j hji hj (by omega)) (objectCountAt (i + 1) (by omega) value).encode
  have hloop := eventLoop_objectCountAt (by omega) value (65534 - i) hpayload
  rw [show 65534 - i + 1 = 65535 - i by omega] at hloop
  obtain ⟨h, hrun, hpolled, -⟩ := hcont [] _ (exec_of_ret hloop)
  have hnum : value = (lastValue E.events dpcObjectCount).getD s.numObjects :=
    (happ h _ hrun hpolled).numObjects
  exact absurd (add_eq_left.mp hnum) (by decide)

end Poll

/-- A runtime that is connected over WiFi. -/
def wirelessRuntime : PtpRuntime := { fujiPtpNew with transport := .wirelessComm }

/-- The camera wants to send images, and there are five. -/
def transferList : EventList := ⟨[⟨0xdf00, 1⟩, ⟨0xd222, 5⟩], by decide⟩

/-- The start of an `ObjectInfo` dataset: the storage 0x10000001. -/
def objectInfoPayload : List UInt8 := [0x01, 0x00, 0x00, 0x10]

/-- The storage of the image is taken for a list of one event: the second event is lost. -/
theorem fujiGetEvents_transferList_lost :
    ¬ ∀ h s', Exec fujiGetEvents wirelessRuntime h .ok s' → Polled transferList [] h →
      Applied transferList.events wirelessRuntime s' := by
  intro happ
  obtain ⟨s₁, hpayload, hfirst, -, hcont⟩ := fujiGetEvents_run (E := transferList)
    (s := wirelessRuntime) (i := 0) (by decide) (by decide) (by simp) objectInfoPayload
  have hread : readLe s₁.payload 0 2 = some 1 := by
    rw [hpayload]
    decide
  have hend : eventLoop 65535 1 s₁ = .ret (.ok, s₁) := by
    rw [eventLoop, bind_of_ret (readU16_eq hread), if_neg (by decide)]
    rfl
  obtain ⟨h, hrun, hpolled, -⟩ := hcont [] s₁ (exec_of_ret hend)
  have hlost : s₁.numObjects = 0 := hfirst.numObjects
  have hall : s₁.numObjects = 5 := (happ h s₁ hrun hpolled).numObjects
  exact absurd (hlost.symm.trans hall) (by decide)

end Fuji
