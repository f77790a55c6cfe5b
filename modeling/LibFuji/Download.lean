/-
Downloading a file (`fuji_download_file_ex` in `fuji.c`).

The loop keeps an account of the object: what lies below `read` has been passed on
(`LoopInv`), so where it ends without an error the object is covered (`wp_downloadLoop`).
Its outcome is what the function returns, except over WiFi: there the code of the closing
write takes its place.

`fujiDownloadFileEx_reports_iff` says in which runs the code returned is right about the
object, and that a failure goes unnoticed in all the others.
-/
import LibFuji.Events

namespace Fuji

open Interaction

/-! ### The code -/

/-- `FUJI_MAX_PARTIAL_OBJECT`. -/
def fujiMaxPartialObject : UInt32 := 0x100000

/-- How the download of an object is left: by a jump to the clean-up, or by a return. -/
inductive Exit
  | cleanup (rc : Rc)
  | leave (rc : Rc)

/-- The loop of `fuji_download_file_ex`, `fuel` times more at most.  A camera that sends
chunks whose length is a multiple of 2^32 keeps it going for ever. -/
def downloadLoop (handle : Int) (oi : ObjectInfo) : ℕ → UInt32 → PtpM Exit
  | 0, _ => hang
  | fuel + 1, read => do
    let cancelled : Bool ← ask .checkThreadCancel
    if cancelled = true then return .cleanup .canceled
    else
      let cur := oi.compressedSize - read
      let cur := if cur > fujiMaxPartialObject then fujiMaxPartialObject else cur
      let r ← transact (.getPartialObject handle read cur)
      if r.rc = .checkCode then return .cleanup r.rc
      else if r.rc ≠ .ok then
        ptpMutexUnlock
        return .leave r.rc
      else
        let s ← get
        let payloadSize := s.payload.length
        let _ ← ask (.reportDownloadSpeed payloadSize)
        if payloadSize = 0 then return .cleanup .runtimeErr
        else
          let len := UInt32.ofNat payloadSize
          let rc : Int ← ask (.handleAdd s.payload len read oi.compressedSize)
          if rc ≠ 0 then return .cleanup .canceled
          else
            let read := read + len
            if read ≥ oi.compressedSize then return .cleanup .ok
            else downloadLoop handle oi fuel read

/-- `fuji_download_file_ex` up to the mutex. -/
def openDownload : PtpM Rc := do
  let fuji ← get
  if fuji.transport = .wirelessComm then
    let rc ← fujiGetEvents
    if rc ≠ .ok then return rc
    else
      -- the code of this write is overwritten
      let _ ← transact (.setPropValue16 dpcEnableCorrectFileSize 1)
      return .ok
  else if fuji.transport = .xappWirelessComm then
    let _ ← transact (.setPropValue16 dpcCompressSmall
      (if fuji.compressImagesForSmartphone then 1 else 2))
    return .ok
  else return .ok

/-- `fuji_download_file_ex` from the mutex to the end of the loop; `info` says whether it has
a callback of that name. -/
def downloadObject (fuel : ℕ) (handle : Int) (info : Bool) : PtpM Exit := do
  let r ← transact (.getObjectInfo handle)
  let oi : ObjectInfo := r.out
  if r.rc ≠ .ok then return .cleanup r.rc
  else
    let _ ← ask (.updateObjectInfo handle oi)
    if info = true then
      let _ ← ask (.downloadInfo oi)
      downloadLoop handle oi fuel 0
    else downloadLoop handle oi fuel 0

/-- `fuji_download_file_ex` from its label `end` on. -/
def closeDownload (rc : Rc) : PtpM Rc := do
  let fuji ← get
  if fuji.transport = .wirelessComm then
    let rc ← fujiGetEvents
    if rc ≠ .ok then
      ptpMutexUnlock
      return rc
    else
      let r ← transact (.setPropValue16 dpcEnableCorrectFileSize 0)
      ptpMutexUnlock
      return r.rc
  else if fuji.transport = .xappWirelessComm then
    let _ ← transact (.setPropValue16 dpcCompressSmall 2)
    ptpMutexUnlock
    return rc
  else
    ptpMutexUnlock
    return rc

/-- `fuji_download_file_ex`. -/
def fujiDownloadFileEx (fuel : ℕ) (handle : Int) (info : Bool) : PtpM Rc := do
  let rc ← openDownload
  if rc ≠ .ok then return rc
  else
    ptpMutexLock
    let exit ← downloadObject fuel handle info
    match exit with
    | .cleanup rc => closeDownload rc
    | .leave rc => return rc

/-! ### What is reported -/

/-- The chunks that have been passed on, and taken, cover the first `size` bytes. -/
def Covers (h : History) (size : UInt32) : Prop :=
  ∀ x < size.toNat, ∃ buf len offset total,
    ⟨.handleAdd buf len offset total, (0 : Int)⟩ ∈ h ∧
      offset.toNat ≤ x ∧ x < offset.toNat + len.toNat

/-- The object has been passed on completely. -/
def Delivered (handle : Int) (h : History) : Prop :=
  ∃ oi, .updateObjectInfo handle oi ∈ h.map Sigma.fst ∧ Covers h oi.compressedSize

/-- A cancelled download, a refused or empty chunk, a refusal of the callback. -/
def Failure : Event Op Op.Ret → Prop
  | ⟨.checkThreadCancel, cancelled⟩ => cancelled = true
  | ⟨.ptp (.getPartialObject handle offset size), r⟩ =>
    let r : Resp (.getPartialObject handle offset size) := r
    r.rc ≠ .ok ∨ r.payload = []
  | ⟨.handleAdd _ _ _ _, rc⟩ => rc ≠ (0 : Int)
  | _ => False

/-- The download has failed: no information about the object was obtained, or some step
failed. -/
def Failed (handle : Int) (h : History) : Prop :=
  (∀ oi, .updateObjectInfo handle oi ∉ h.map Sigma.fst) ∨ ∃ e ∈ h, Failure e

/-- The code is right about the object. -/
def Reports (handle : Int) (h : History) (rc : Rc) : Prop :=
  (rc = .ok → Delivered handle h) ∧ (Failed handle h → rc ≠ .ok)

/-- The write that ends a download over WiFi. -/
abbrev closingWrite : PtpCommand := .setPropValue16 dpcEnableCorrectFileSize 0

/-- The camera has accepted the closing write. -/
def Closed (h : History) : Prop :=
  ∃ r : Resp closingWrite, ⟨.ptp closingWrite, r⟩ ∈ h ∧ r.rc = .ok

/-! ### Operations beside the download -/

/-- Operations that have no part in the download of the object. -/
def Op.Inert : Op → Prop
  | .updateObjectInfo _ _ => False
  | .checkThreadCancel => False
  | .handleAdd _ _ _ _ => False
  | .ptp (.getPartialObject _ _ _) => False
  | _ => True

/-- Inert operations other than the closing write. -/
def Op.Aside (op : Op) : Prop := op.Inert ∧ op ≠ .ptp closingWrite

theorem Op.Polling.aside {op : Op} (h : op.Polling) : op.Aside := by
  constructor
  · cases op with
    | ptp c => cases c <;> trivial
    | _ => trivial
  · rintro rfl
    exact h

theorem not_failure_of_inert {e : Event Op Op.Ret} (he : e.1.Inert) : ¬ Failure e := by
  obtain ⟨op, r⟩ := e
  cases op with
  | ptp c => cases c <;> first | exact id | exact he.elim
  | _ => first | exact id | exact he.elim

section Histories

variable {handle : Int} {h t : History} {size : UInt32}

theorem Covers.append (hc : Covers h size) (t : History) : Covers (h ++ t) size := by
  intro x hx
  obtain ⟨buf, len, offset, total, hmem, hle, hlt⟩ := hc x hx
  exact ⟨buf, len, offset, total, List.mem_append_left t hmem, hle, hlt⟩

theorem Covers.mono {size' : UInt32} (hc : Covers h size) (hle : size' ≤ size) :
    Covers h size' :=
  fun x hx => hc x (hx.trans_le (UInt32.le_iff_toNat_le.mp hle))

theorem Delivered.append (hd : Delivered handle h) (t : History) : Delivered handle (h ++ t) := by
  obtain ⟨oi, hmem, hc⟩ := hd
  refine ⟨oi, ?_, hc.append t⟩
  rw [List.map_append]
  exact List.mem_append_left _ hmem

theorem failed_append (ht : ∀ e ∈ t, e.1.Inert) : Failed handle (h ++ t) ↔ Failed handle h := by
  refine or_congr (forall_congr' fun oi => not_congr ?_) ?_
  · rw [List.map_append, List.mem_append, or_iff_left]
    intro hmem
    obtain ⟨e, he, hop⟩ := List.mem_map.mp hmem
    have hinert := ht e he
    rw [hop] at hinert
    exact hinert
  · simp only [List.mem_append, or_and_right, exists_or]
    exact or_iff_left fun ⟨e, he, hf⟩ => not_failure_of_inert (ht e he) hf

theorem closed_append (ht : ∀ e ∈ t, e.1 ≠ .ptp closingWrite) : Closed (h ++ t) ↔ Closed h := by
  refine exists_congr fun r => and_congr_left fun _ => ?_
  rw [List.mem_append, or_iff_left]
  exact fun hmem => ht _ hmem rfl

end Histories

/-! ### The loop -/

/-- Where the loop stands: nothing has failed, and what lies below `read` has been passed
on. -/
structure LoopInv (handle : Int) (oi : ObjectInfo) (read : UInt32) (h : History) : Prop where
  informed : .updateObjectInfo handle oi ∈ h.map Sigma.fst
  covers : Covers h read
  no_failure : ∀ e ∈ h, ¬ Failure e
  not_closed : ¬ Closed h

/-- How the download of the object may be left. -/
def ExitOk (handle : Int) (h : History) : Exit → Prop
  | .leave rc => rc ≠ .ok ∧ ¬ Closed h
  | .cleanup rc => ¬ Closed h ∧
      (rc = .ok ∧ Delivered handle h ∧ ¬ Failed handle h ∨ rc ≠ .ok ∧ Failed handle h)

section Loop

variable {handle : Int} {oi : ObjectInfo} {read : UInt32} {h : History}

theorem LoopInv.snoc (hinv : LoopInv handle oi read h) {e : Event Op Op.Ret} (he : ¬ Failure e)
    (hop : e.1 ≠ .ptp closingWrite) : LoopInv handle oi read (h ++ [e]) where
  informed := by
    rw [List.map_append]
    exact List.mem_append_left _ hinv.informed
  covers := hinv.covers.append _
  no_failure e' he' := by
    rcases List.mem_append.mp he' with he' | he'
    · exact hinv.no_failure e' he'
    · rwa [List.mem_singleton.mp he']
  not_closed := by
    rw [closed_append (by simpa using hop)]
    exact hinv.not_closed

/-- A chunk that is taken moves the loop on, also where the counter wraps. -/
theorem LoopInv.chunk (hinv : LoopInv handle oi read h) (buf : List UInt8) (len total : UInt32) :
    LoopInv handle oi (read + len) (h ++ [⟨.handleAdd buf len read total, (0 : Int)⟩]) := by
  have hsnoc := hinv.snoc (e := ⟨.handleAdd buf len read total, (0 : Int)⟩) (fun hne => hne rfl)
    (by simp)
  refine { hsnoc with covers := fun x hx => ?_ }
  rcases Nat.lt_or_ge x read.toNat with hlt | hge
  · exact hsnoc.covers x hlt
  · refine ⟨buf, len, read, total, by simp, hge, hx.trans_le ?_⟩
    rw [UInt32.toNat_add]
    exact Nat.mod_le _ _

theorem LoopInv.exitOk_ok (hinv : LoopInv handle oi read h) (hread : oi.compressedSize ≤ read) :
    ExitOk handle h (.cleanup .ok) := by
  refine ⟨hinv.not_closed, .inl ⟨rfl, ⟨oi, hinv.informed, hinv.covers.mono hread⟩, ?_⟩⟩
  rintro (hno | ⟨e, he, hfail⟩)
  · exact hno oi hinv.informed
  · exact hinv.no_failure e he hfail

theorem LoopInv.exitOk_failure (hinv : LoopInv handle oi read h) {e : Event Op Op.Ret}
    (he : Failure e) (hop : e.1 ≠ .ptp closingWrite) {t : History}
    (ht : ∀ e' ∈ t, e'.1 ≠ .ptp closingWrite) {rc : Rc} (hrc : rc ≠ .ok) :
    ExitOk handle (h ++ [e] ++ t) (.cleanup rc) := by
  refine ⟨?_, .inr ⟨hrc, .inr ⟨e, by simp, he⟩⟩⟩
  rw [closed_append ht, closed_append (by simpa using hop)]
  exact hinv.not_closed

theorem wp_downloadLoop (fuel : ℕ) (hinv : LoopInv handle oi read h) (s : PtpRuntime) :
    wp (downloadLoop handle oi fuel read)
      (fun h' exit s' => s'.transport = s.transport ∧ ExitOk handle h' exit) h s := by
  induction fuel generalizing read h s with
  | zero => exact wp_hang
  | succ fuel ih =>
    rw [downloadLoop, wp_bind, wp_ask]
    intro cancelled
    rw [wp_ite]
    refine ⟨fun hc => ⟨rfl, ?_⟩, fun hc => ?_⟩
    -- cancelled
    · simpa using hinv.exitOk_failure (e := ⟨.checkThreadCancel, cancelled⟩) hc (by simp)
        (t := []) (by simp) (by simp)
    have hinv₁ := hinv.snoc (e := ⟨.checkThreadCancel, cancelled⟩) hc (by simp)
    rw [wp_bind, wp_transact]
    intro r
    rw [wp_ite]
    refine ⟨fun hr => ⟨rfl, ?_⟩, fun _ => ?_⟩
    -- the chunk is refused with the code that goes through the clean-up
    · have hne : r.rc ≠ .ok := by simp [hr]
      simpa using hinv₁.exitOk_failure (e := ⟨.ptp (.getPartialObject handle read _), r⟩)
        (.inl hne) (by simp) (t := []) (by simp) hne
    rw [wp_ite]
    refine ⟨fun hr => ?_, fun hr => ?_⟩
    -- or with another, which is returned at once
    · rw [wp_bind, wp_ptpMutexUnlock]
      refine fun _ => ⟨rfl, hr, ?_⟩
      rw [closed_append (by simp), closed_append (by simp)]
      exact hinv₁.not_closed
    rw [wp_bind, wp_get, wp_bind, wp_ask]
    intro speed
    rw [wp_ite]
    refine ⟨fun hsize => ⟨rfl, ?_⟩, fun hsize => ?_⟩
    -- the chunk is empty
    · exact hinv₁.exitOk_failure (e := ⟨.ptp (.getPartialObject handle read _), r⟩)
        (.inr (List.length_eq_zero_iff.mp hsize)) (by simp) (by simp) (by simp)
    have hinv₂ := (hinv₁.snoc (e := ⟨.ptp (.getPartialObject handle read _), r⟩)
      (not_or.mpr ⟨hr, fun hnil => hsize (by rw [hnil]; rfl)⟩) (by simp)).snoc
      (e := ⟨.reportDownloadSpeed _, speed⟩) id (by simp)
    rw [wp_bind, wp_ask]
    intro taken
    rw [wp_ite]
    refine ⟨fun hne => ⟨rfl, ?_⟩, fun htaken => ?_⟩
    -- the callback refuses it
    · simpa using hinv₂.exitOk_failure (e := ⟨.handleAdd _ _ read _, taken⟩) hne (by simp)
        (t := []) (by simp) (by simp)
    obtain rfl : taken = (0 : Int) := not_not.mp htaken
    have hinv₃ := hinv₂.chunk r.payload (UInt32.ofNat r.payload.length) oi.compressedSize
    rw [wp_ite]
    exact ⟨fun hread => ⟨rfl, hinv₃.exitOk_ok hread⟩, fun _ => ih hinv₃ _⟩

end Loop

/-! ### Before and after it -/

section Ends

variable {handle : Int} {h : History}

/-- Only operations beside the download so far. -/
def Untouched (h : History) : Prop := ∀ e ∈ h, e.1.Aside

theorem Untouched.snoc (hu : Untouched h) {e : Event Op Op.Ret} (he : e.1.Aside) :
    Untouched (h ++ [e]) := by
  intro e' he'
  rcases List.mem_append.mp he' with he' | he'
  · exact hu e' he'
  · rwa [List.mem_singleton.mp he']

theorem Untouched.not_closed (hu : Untouched h) : ¬ Closed h := by
  rintro ⟨r, hmem, -⟩
  exact (hu _ hmem).2 rfl

theorem failed_of_inert (hinert : ∀ e ∈ h, e.1.Inert) (handle : Int) : Failed handle h := by
  refine .inl fun oi hmem => ?_
  obtain ⟨e, he, hop⟩ := List.mem_map.mp hmem
  have hno := hinert e he
  rw [hop] at hno
  exact hno

theorem wp_downloadObject (hu : Untouched h) (fuel : ℕ) (info : Bool) (s : PtpRuntime) :
    wp (downloadObject fuel handle info)
      (fun h' exit s' => s'.transport = s.transport ∧ ExitOk handle h' exit) h s := by
  rw [downloadObject, wp_bind, wp_transact]
  intro r
  have hu₁ : Untouched (h ++ [⟨.ptp (.getObjectInfo handle), r⟩]) :=
    hu.snoc ⟨trivial, by simp⟩
  rw [wp_ite]
  refine ⟨fun hr => ⟨rfl, hu₁.not_closed, .inr ⟨hr, failed_of_inert (fun e he => (hu₁ e he).1) handle⟩⟩, fun _ => ?_⟩
  rw [wp_bind, wp_ask]
  intro told
  let oi : ObjectInfo := r.out
  have hinv : LoopInv handle oi 0
      (h ++ [⟨.ptp (.getObjectInfo handle), r⟩] ++ [⟨.updateObjectInfo handle oi, told⟩]) := by
    refine ⟨by simp, fun x hx => absurd hx (by simp), fun e he => ?_, ?_⟩
    · rcases List.mem_append.mp he with he | he
      · exact not_failure_of_inert (hu₁ e he).1
      · rw [List.mem_singleton.mp he]
        exact id
    · rw [closed_append (by simp)]
      exact hu₁.not_closed
  rw [wp_ite]
  refine ⟨fun _ => ?_, fun _ => wp_downloadLoop fuel hinv _⟩
  rw [wp_bind, wp_ask]
  intro called
  exact wp_downloadLoop fuel (hinv.snoc (e := ⟨.downloadInfo oi, called⟩) id (by simp)) _

theorem openDownload_respects : Respects Op.Aside SameTransport openDownload := by
  have hevents : Respects Op.Aside SameTransport fujiGetEvents :=
    fujiGetEvents_respects.mono fun _ => Op.Polling.aside
  refine respects_bind respects_get fun fuji => ?_
  refine respects_ite ?_ (respects_ite ?_ (respects_pure _))
  · refine respects_bind hevents fun rc => respects_ite (respects_pure _) ?_
    refine respects_bind (transact_respects (fun _ _ => rfl) ⟨trivial, ?_⟩) fun _ =>
      respects_pure _
    simp
  · refine respects_bind (transact_respects (fun _ _ => rfl) ⟨trivial, ?_⟩) fun _ =>
      respects_pure _
    simp [dpcCompressSmall, dpcEnableCorrectFileSize]

/-- The outcome of the download is right about the object. -/
theorem ExitOk.reports {rc : Rc} (hexit : ExitOk handle h (.cleanup rc)) {t : History}
    (ht : ∀ e ∈ t, e.1.Inert) : Reports handle (h ++ t) rc := by
  rw [Reports, failed_append ht]
  rcases hexit.2 with ⟨-, hdelivered, hno⟩ | ⟨hrc, -⟩
  · exact ⟨fun _ => hdelivered.append t, fun hfailed => absurd hfailed hno⟩
  · exact ⟨fun hok => absurd hok hrc, fun _ => hrc⟩

/-- An error is always right when the closing write has not been made. -/
theorem reports_iff_of_not_ok {c : Prop} {rc : Rc} (hrc : rc ≠ .ok) (hc : ¬ Closed h) :
    Reports handle h rc ↔ c ∨ ¬ Failed handle h ∨ ¬ Closed h :=
  iff_of_true ⟨fun hok => absurd hok hrc, fun _ => hrc⟩ (.inr (.inr hc))

/-- Over WiFi the code of the closing write takes the place of the outcome. -/
theorem ExitOk.reports_closed {rc : Rc} (hexit : ExitOk handle h (.cleanup rc)) {t : History}
    (ht : ∀ e ∈ t, e.1.Aside) (r : Resp closingWrite) (u : Op.mutexUnlock.Ret) :
    Reports handle (h ++ t ++ [⟨.ptp closingWrite, r⟩] ++ [⟨.mutexUnlock, u⟩]) r.rc ↔
      ¬ Failed handle (h ++ t ++ [⟨.ptp closingWrite, r⟩] ++ [⟨.mutexUnlock, u⟩]) ∨
        ¬ Closed (h ++ t ++ [⟨.ptp closingWrite, r⟩] ++ [⟨.mutexUnlock, u⟩]) := by
  have hclosed : Closed (h ++ t ++ [⟨.ptp closingWrite, r⟩] ++ [⟨.mutexUnlock, u⟩]) ↔
      r.rc = .ok := by
    rw [closed_append (by simp)]
    have hno : ¬ Closed (h ++ t) := by
      rw [closed_append fun e he => (ht e he).2]
      exact hexit.1
    constructor
    · rintro ⟨r', hmem, hr'⟩
      rcases List.mem_append.mp hmem with hmem | hmem
      · exact absurd ⟨r', hmem, hr'⟩ hno
      · obtain rfl : r' = r := by simpa using hmem
        exact hr'
    · exact fun hr => ⟨r, by simp, hr⟩
  have hfailed : Failed handle (h ++ t ++ [⟨.ptp closingWrite, r⟩] ++ [⟨.mutexUnlock, u⟩]) ↔
      Failed handle h := by
    rw [failed_append (by simp [Op.Inert]), failed_append (by simp [Op.Inert]),
      failed_append fun e he => (ht e he).1]
  rw [Reports, hfailed, hclosed]
  rcases hexit.2 with ⟨-, hdelivered, hno⟩ | ⟨-, hf⟩
  -- a complete object may be reported either way
  · refine iff_of_true ⟨fun _ => ?_, fun hf => absurd hf hno⟩ (.inl hno)
    exact ((hdelivered.append t).append _).append _
  · refine ⟨fun hrep => .inr (hrep.2 hf), fun hor => ?_⟩
    have hr : r.rc ≠ .ok := hor.resolve_left (not_not.mpr hf)
    exact ⟨fun hok => absurd hok hr, fun _ => hr⟩

theorem wp_closeDownload {rc : Rc} (hexit : ExitOk handle h (.cleanup rc)) (s : PtpRuntime) :
    wp (closeDownload rc) (fun h' rc' _ => Reports handle h' rc' ↔
      s.transport ≠ .wirelessComm ∨ ¬ Failed handle h' ∨ ¬ Closed h') h s := by
  rw [closeDownload, wp_bind, wp_get, wp_ite]
  refine ⟨fun hwifi => ?_, fun hwifi => ?_⟩
  · rw [wp_bind]
    refine fujiGetEvents_respects.wp fun t rc₁ s₁ ht _ => ?_
    have haside : ∀ e ∈ t, e.1.Aside := fun e he => (ht e he).aside
    rw [wp_ite]
    refine ⟨fun hrc => ?_, fun _ => ?_⟩
    · rw [wp_bind, wp_ptpMutexUnlock]
      refine fun u => reports_iff_of_not_ok hrc ?_
      rw [closed_append (by simp), closed_append fun e he => (haside e he).2]
      exact hexit.1
    · rw [wp_bind, wp_transact]
      intro r
      rw [wp_bind, wp_ptpMutexUnlock]
      intro u
      rw [wp_pure, or_iff_right (not_not.mpr hwifi)]
      exact hexit.reports_closed haside r u
  · rw [wp_ite]
    refine ⟨fun _ => ?_, fun _ => ?_⟩
    · rw [wp_bind, wp_transact]
      intro r
      rw [wp_bind, wp_ptpMutexUnlock]
      intro u
      rw [List.append_assoc]
      exact iff_of_true (hexit.reports (by simp [Op.Inert])) (.inl hwifi)
    · rw [wp_bind, wp_ptpMutexUnlock]
      exact fun u => iff_of_true (hexit.reports (by simp [Op.Inert])) (.inl hwifi)

/-- **When a download reports what became of the object**: if it does not go over WiFi, or
nothing has failed, or the camera does not accept the closing write. -/
theorem fujiDownloadFileEx_reports_iff {fuel : ℕ} {info : Bool} {s s' : PtpRuntime} {rc : Rc}
    (hrun : Exec (fujiDownloadFileEx fuel handle info) s h rc s') :
    Reports handle h rc ↔ s.transport ≠ .wirelessComm ∨ ¬ Failed handle h ∨ ¬ Closed h := by
  suffices hwp : wp (fujiDownloadFileEx fuel handle info) (fun h rc _ => Reports handle h rc ↔
      s.transport ≠ .wirelessComm ∨ ¬ Failed handle h ∨ ¬ Closed h) [] s from
    wp_iff.mp hwp h rc s' hrun
  rw [fujiDownloadFileEx, wp_bind]
  refine openDownload_respects.wp fun t rc s₁ ht hs₁ => ?_
  have hu : Untouched t := ht
  rw [List.nil_append, wp_ite]
  refine ⟨fun hrc => reports_iff_of_not_ok hrc hu.not_closed, fun _ => ?_⟩
  rw [wp_bind, wp_ptpMutexLock]
  intro a
  have hu₁ : Untouched (t ++ [⟨.mutexLock, a⟩]) := hu.snoc ⟨trivial, by simp⟩
  rw [wp_bind]
  refine wp_mono ?_ (wp_downloadObject hu₁ fuel info s₁)
  rintro h' (rc | rc) s₂ ⟨hs₂, hexit⟩
  · have hclose := wp_closeDownload hexit s₂
    rwa [hs₂, hs₁] at hclose
  · exact reports_iff_of_not_ok hexit.1 hexit.2

end Ends

/-! ### Runs -/

theorem openDownload_run {s : PtpRuntime} (hs : s.transport = .wirelessComm) :
    ∃ h, Exec openDownload s h .ok ((s.answered []).answered []) ∧ ∀ e ∈ h, e.1.Inert := by
  obtain ⟨h, hevents, -⟩ := fujiGetEvents_run_none s
  have hrun : Exec openDownload s _ .ok _ :=
    exec_bind exec_get <| exec_ite_pos hs <| exec_bind hevents <| exec_ite_neg (by simp) <|
      exec_bind (exec_transact ⟨.ok, [], ()⟩) (exec_pure _)
  exact ⟨_, hrun, fun e he => ((openDownload_respects s _ .ok _ hrun).1 e he).1⟩

/-- Whatever the outcome was, the camera may accept the closing write. -/
theorem closeDownload_run (rc : Rc) {s : PtpRuntime} (hs : s.transport = .wirelessComm) :
    ∃ h, Exec (closeDownload rc) s h .ok ((s.answered []).answered []) ∧
      ∀ e ∈ h, e.1.Inert := by
  obtain ⟨h, hevents, hpolling⟩ := fujiGetEvents_run_none s
  let r : Resp closingWrite := ⟨.ok, [], ()⟩
  have hrun : Exec (closeDownload rc) s _ .ok _ :=
    exec_bind exec_get <| exec_ite_pos hs <| exec_bind hevents <| exec_ite_neg (by simp) <|
      exec_bind (exec_transact r) <| exec_bind (exec_ask ()) (exec_pure _)
  refine ⟨_, hrun, fun e he => ?_⟩
  simp only [List.nil_append, List.append_nil, List.mem_append, List.mem_singleton] at he
  rcases he with he | rfl | rfl
  · exact (hpolling e he).aside.1
  · trivial
  · trivial

/-- An object of three bytes. -/
def smallObject : ObjectInfo := { ObjectInfo.zero with compressedSize := 3 }

theorem fujiDownloadFileEx_reports_smallObject : ∃ h s',
    Exec (fujiDownloadFileEx 1 7 false) wirelessRuntime h .ok s' ∧
    .updateObjectInfo 7 smallObject ∈ h.map Sigma.fst ∧
    (Reports 7 h .ok ↔ wirelessRuntime.transport ≠ .wirelessComm ∨ ¬ Failed 7 h ∨ ¬ Closed h) := by
  obtain ⟨h, hopen, -⟩ := openDownload_run (s := wirelessRuntime) rfl
  let s₁ := (wirelessRuntime.answered []).answered []
  let s₂ := (s₁.answered []).answered [1, 2, 3]
  obtain ⟨h', hclose, -⟩ := closeDownload_run .ok (s := s₂) rfl
  have hobject : Exec (downloadObject 1 7 false) s₁ _ (.cleanup .ok) s₂ :=
    exec_bind (exec_transact ⟨.ok, [], smallObject⟩) <| exec_ite_neg (by simp) <|
      exec_bind (exec_ask ()) <| exec_ite_neg (by simp) <|
      exec_bind (exec_ask false) <| exec_ite_neg (by simp) <|
      exec_bind (exec_transact ⟨.ok, [1, 2, 3], ()⟩) <| exec_ite_neg (by simp) <|
      exec_ite_neg (by simp) <| exec_bind exec_get <| exec_bind (exec_ask ()) <|
      exec_ite_neg (by simp) <| exec_bind (exec_ask (0 : Int)) <| exec_ite_neg (by simp) <|
      exec_ite_pos (by decide) (exec_pure _)
  have hrun : Exec (fujiDownloadFileEx 1 7 false) wirelessRuntime _ .ok _ :=
    exec_bind hopen <| exec_ite_neg (by simp) <| exec_bind (exec_ask ()) <|
      exec_bind hobject hclose
  exact ⟨_, _, hrun, by simp, fujiDownloadFileEx_reports_iff hrun⟩

/-- The camera refuses to tell anything about the object, and accepts the closing write. -/
theorem fujiDownloadFileEx_refused :
    ¬ ∀ h rc s', Exec (fujiDownloadFileEx 1 7 false) wirelessRuntime h rc s' →
      Reports 7 h rc := by
  intro hreports
  obtain ⟨h, hopen, hinert⟩ := openDownload_run (s := wirelessRuntime) rfl
  let s₁ := (wirelessRuntime.answered []).answered []
  obtain ⟨h', hclose, hinert'⟩ := closeDownload_run .checkCode (s := s₁.answered []) rfl
  have hobject : Exec (downloadObject 1 7 false) s₁ _ (.cleanup .checkCode) (s₁.answered []) :=
    exec_bind (exec_transact ⟨.checkCode, [], ObjectInfo.zero⟩) <|
      exec_ite_pos (by simp) (exec_pure _)
  have hrun : Exec (fujiDownloadFileEx 1 7 false) wirelessRuntime _ .ok _ :=
    exec_bind hopen <| exec_ite_neg (by simp) <| exec_bind (exec_ask ()) <|
      exec_bind hobject hclose
  refine (hreports _ .ok _ hrun).2 (failed_of_inert (fun e he => ?_) 7) rfl
  simp only [List.append_nil, List.mem_append, List.mem_singleton] at he
  rcases he with he | rfl | rfl | he
  · exact hinert e he
  · trivial
  · trivial
  · exact hinert' e he

end Fuji
