/-
The mode a download leaves the camera in (`fuji_download_file_ex` in `fuji.c`).

A download sets a property of the camera, and writes it once more on its way out.  Two exits
miss that write: the return where a chunk is refused, and, over WiFi, the return where the poll
in front of the closing write fails.

* `wp_downloadObject_leave` — which answers leave the loop by the return;
* `fujiDownloadFileEx_restores_iff` — so the camera is left as it should be in the runs without
  these answers, and in no other.
-/
import LibFuji.Download
import LibFuji.EventTurns

namespace Fuji

open Interaction

/-! ### Writes -/

/-- The write of a 16-bit property an event is, if any. -/
def writeOf : Event Op Op.Ret → Option (ℕ × UInt16)
  | ⟨.ptp (.setPropValue16 code value), _⟩ => some (code, value)
  | _ => none

/-- The writes of 16-bit properties, in their order. -/
def writes (h : History) : List (ℕ × UInt16) := h.filterMap writeOf

/-- The last value a property has been given. -/
def lastWrite (h : History) (code : ℕ) : Option UInt16 := Assignments.last (writes h) code

/-- The camera is not left in the mode of a download. -/
structure Restores (t : FujiTransport) (h : History) : Prop where
  correctFileSize : t = .wirelessComm → (dpcEnableCorrectFileSize, 1) ∈ writes h →
    lastWrite h dpcEnableCorrectFileSize = some 0
  compressSmall : t = .xappWirelessComm → lastWrite h dpcCompressSmall = some 2

/-! ### Answers that make it fail -/

/-- A chunk that is refused, with a code other than the one that goes through the clean-up. -/
def RefusesChunk : Event Op Op.Ret → Prop
  | ⟨.ptp (.getPartialObject handle offset size), r⟩ =>
    let r : Resp (.getPartialObject handle offset size) := r
    r.rc ≠ .ok ∧ r.rc ≠ .checkCode
  | _ => False

/-- The write that starts a download over WiFi. -/
def opens : Event Op Op.Ret → Bool
  | ⟨.ptp (.setPropValue16 code value), _⟩ => code = dpcEnableCorrectFileSize ∧ value = 1
  | _ => false

/-- The request for the events. -/
def polls : Event Op Op.Ret → Bool
  | ⟨.ptp (.getPropValue code), _⟩ => code = dpcEventsList
  | _ => false

/-- What comes from the poll behind the download on. -/
def closingPoll (h : History) : History := (h.dropWhile (!opens ·)).dropWhile (!polls ·)

/-- The answers of the camera that keep a download from restoring the mode: it refuses a chunk,
which over the other transport only matters where images are compressed, or it fails the poll
behind the download. -/
def Interrupted (s : PtpRuntime) (h : History) : Prop :=
  s.transport = .wirelessComm ∧
      ((∃ e ∈ h, RefusesChunk e) ∨ ∃ e ∈ closingPoll h, FailsPoll e) ∨
    s.transport = .xappWirelessComm ∧ s.compressImagesForSmartphone = true ∧
      ∃ e ∈ h, RefusesChunk e

section Histories

variable {h t : History}

theorem writes_append : writes (h ++ t) = writes h ++ writes t := List.filterMap_append

theorem writes_of_none (hnone : ∀ e ∈ h, writeOf e = none) : writes h = [] :=
  List.filterMap_eq_nil_iff.mpr hnone

end Histories

/-! ### The download of the object -/

section Object

variable {handle : Int} {h : History} {s : PtpRuntime}

/-- The result says that no chunk has been refused, as the loop is left by a jump to the
clean-up. -/
abbrev TellsChunks (h : History) (exit : Exit) (_s : PtpRuntime) : Prop :=
  (∃ rc, exit = .cleanup rc) ↔ Spared RefusesChunk h

theorem cleanup_iff (hh : Spared RefusesChunk h) (rc : Rc) :
    (∃ rc', Exit.cleanup rc = .cleanup rc') ↔ Spared RefusesChunk h :=
  iff_of_true ⟨rc, rfl⟩ hh

theorem wp_downloadLoop_leave (hh : Spared RefusesChunk h) (oi : ObjectInfo) (fuel : ℕ)
    (read : UInt32) : wp (downloadLoop handle oi fuel read) TellsChunks h s := by
  induction fuel generalizing read h s with
  | zero => exact wp_hang
  | succ fuel ih =>
    rw [downloadLoop, wp_bind, wp_ask]
    intro cancelled
    have hh₁ : Spared RefusesChunk (h ++ [⟨.checkThreadCancel, cancelled⟩]) := hh.snoc id
    rw [wp_ite]
    refine ⟨fun _ => cleanup_iff hh₁ _, fun _ => ?_⟩
    rw [wp_bind, wp_transact]
    intro r
    let e : Event Op Op.Ret := ⟨.ptp (.getPartialObject handle read _), r⟩
    rw [wp_ite]
    refine ⟨fun hcode => cleanup_iff (hh₁.snoc (e := e) fun hf => hf.2 hcode) _,
      fun hcode => ?_⟩
    rw [wp_ite]
    refine ⟨fun hne => ?_, fun hok => ?_⟩
    -- the return
    · rw [wp_bind, wp_ptpMutexUnlock]
      exact fun u => iff_of_false (by simp) (not_spared (e := e) ⟨hne, hcode⟩)
    have hh₂ : Spared RefusesChunk (h ++ [⟨.checkThreadCancel, cancelled⟩] ++ [e]) :=
      hh₁.snoc fun hf => hok hf.1
    rw [wp_bind, wp_get, wp_bind, wp_ask]
    intro speed
    have hh₃ := hh₂.snoc (e := ⟨.reportDownloadSpeed _, speed⟩) id
    rw [wp_ite]
    refine ⟨fun _ => cleanup_iff hh₃ _, fun _ => ?_⟩
    rw [wp_bind, wp_ask]
    intro taken
    have hh₄ := hh₃.snoc (e := ⟨.handleAdd _ _ read _, taken⟩) id
    rw [wp_ite]
    refine ⟨fun _ => cleanup_iff hh₄ _, fun _ => ?_⟩
    rw [wp_ite]
    exact ⟨fun _ => cleanup_iff hh₄ _, fun _ => ih hh₄ _⟩

/-- **The return is taken just with a chunk that is refused.** -/
theorem wp_downloadObject_leave (hh : Spared RefusesChunk h) (fuel : ℕ) (info : Bool) :
    wp (downloadObject fuel handle info) TellsChunks h s := by
  rw [downloadObject, wp_bind, wp_transact]
  intro r
  have hh₁ := hh.snoc (e := ⟨.ptp (.getObjectInfo handle), r⟩) id
  rw [wp_ite]
  refine ⟨fun _ => cleanup_iff hh₁ _, fun _ => ?_⟩
  rw [wp_bind, wp_ask]
  intro told
  have hh₂ := hh₁.snoc (e := ⟨.updateObjectInfo handle _, told⟩) id
  rw [wp_ite]
  refine ⟨fun _ => ?_, fun _ => wp_downloadLoop_leave hh₂ _ fuel 0⟩
  rw [wp_bind, wp_ask]
  exact fun called => wp_downloadLoop_leave (hh₂.snoc (e := ⟨.downloadInfo _, called⟩) id) _ fuel 0

/-- Operations of the download of an object. -/
def Op.Downloading : Op → Prop
  | .ptp (.getObjectInfo _) => True
  | .ptp (.getPartialObject _ _ _) => True
  | .updateObjectInfo _ _ => True
  | .downloadInfo _ => True
  | .checkThreadCancel => True
  | .reportDownloadSpeed _ => True
  | .handleAdd _ _ _ _ => True
  | .mutexUnlock => True
  | _ => False

theorem downloadLoop_issues (handle : Int) (oi : ObjectInfo) (fuel : ℕ) (read : UInt32) :
    Issues Op.Downloading (downloadLoop handle oi fuel read) := by
  induction fuel generalizing read with
  | zero => exact issues_hang
  | succ fuel ih =>
    refine issues_bind (issues_ask trivial) fun cancelled => issues_ite (issues_pure _) ?_
    refine issues_bind (issues_transact trivial) fun r => issues_ite (issues_pure _) ?_
    refine issues_ite (issues_bind (issues_ask trivial) fun _ => issues_pure _) ?_
    refine issues_bind issues_get fun s => issues_bind (issues_ask trivial) fun _ => ?_
    refine issues_ite (issues_pure _) (issues_bind (issues_ask trivial) fun rc => ?_)
    exact issues_ite (issues_pure _) (issues_ite (issues_pure _) (ih _))

theorem downloadObject_issues (fuel : ℕ) (handle : Int) (info : Bool) :
    Issues Op.Downloading (downloadObject fuel handle info) := by
  refine issues_bind (issues_transact trivial) fun r => issues_ite (issues_pure _) ?_
  refine issues_bind (issues_ask trivial) fun _ => issues_ite ?_ (downloadLoop_issues _ _ _ _)
  exact issues_bind (issues_ask trivial) fun _ => downloadLoop_issues _ _ _ _

end Object

/-! ### The parts of a run -/

section Parts

variable {h : History} {rc : Rc} {s s' : PtpRuntime}

/-- The write that starts a download over WiFi. -/
abbrev openingWrite : PtpCommand := .setPropValue16 dpcEnableCorrectFileSize 1

/-- The write of `PTP_DPC_FUJI_CompressSmall_D226` that starts a download. -/
abbrev compressWrite (s : PtpRuntime) : PtpCommand :=
  .setPropValue16 dpcCompressSmall (if s.compressImagesForSmartphone then 1 else 2)

/-- The write that ends it. -/
abbrev uncompressWrite : PtpCommand := .setPropValue16 dpcCompressSmall 2

theorem fujiGetEvents_starts (hrun : Exec fujiGetEvents s h rc s') :
    ∃ a r t, h = ⟨.mutexLock, a⟩ :: ⟨.ptp (.getPropValue dpcEventsList), r⟩ :: t := by
  obtain ⟨a, h₁, rfl, hrun₁⟩ := exec_ask_bind.mp hrun
  obtain ⟨r, h₂, rfl, -⟩ := exec_transact_bind.mp hrun₁
  exact ⟨a, r, h₂, rfl⟩

/-- What `openDownload` does, for each transport. -/
theorem openDownload_cases (hrun : Exec openDownload s h rc s') :
    s.transport = .wirelessComm ∧ (∃ t, (∀ e ∈ t, e.1.Polling) ∧
        (rc ≠ .ok ∧ h = t ∨ rc = .ok ∧ ∃ r, h = t ++ [⟨.ptp openingWrite, r⟩])) ∨
      s.transport = .xappWirelessComm ∧ rc = .ok ∧ (∃ r, h = [⟨.ptp (compressWrite s), r⟩]) ∨
      s.transport ≠ .wirelessComm ∧ s.transport ≠ .xappWirelessComm ∧ rc = .ok ∧ h = [] := by
  rw [openDownload, exec_get_bind] at hrun
  by_cases hwifi : s.transport = .wirelessComm
  · rw [if_pos hwifi] at hrun
    obtain ⟨t, rc₁, s₁, h₂, rfl, hpoll, hrest⟩ := exec_of_bind hrun
    refine .inl ⟨hwifi, t, (fujiGetEvents_respects s t rc₁ s₁ hpoll).1, ?_⟩
    by_cases hrc : rc₁ = .ok
    · rw [if_neg (not_not.mpr hrc)] at hrest
      obtain ⟨r, h₃, rfl, hend⟩ := exec_transact_bind.mp hrest
      cases hend
      exact .inr ⟨rfl, r, rfl⟩
    · rw [if_pos hrc] at hrest
      cases hrest
      exact .inl ⟨hrc, List.append_nil t⟩
  rw [if_neg hwifi] at hrun
  by_cases hxapp : s.transport = .xappWirelessComm
  · rw [if_pos hxapp] at hrun
    obtain ⟨r, h₁, rfl, hend⟩ := exec_transact_bind.mp hrun
    cases hend
    exact .inr (.inl ⟨hxapp, rfl, r, rfl⟩)
  · rw [if_neg hxapp] at hrun
    cases hrun
    exact .inr (.inr ⟨hwifi, hxapp, rfl, rfl⟩)

/-- What `closeDownload` does, for each transport. -/
theorem closeDownload_cases {rc₀ : Rc} (hrun : Exec (closeDownload rc₀) s h rc s') :
    s.transport = .wirelessComm ∧ (∃ rc₁ s₁ t, Exec fujiGetEvents s t rc₁ s₁ ∧
        (rc₁ ≠ .ok ∧ (∃ u, h = t ++ [⟨.mutexUnlock, u⟩]) ∨
          rc₁ = .ok ∧ ∃ r u, h = t ++ [⟨.ptp closingWrite, r⟩, ⟨.mutexUnlock, u⟩])) ∨
      s.transport = .xappWirelessComm ∧
        (∃ r u, h = [⟨.ptp uncompressWrite, r⟩, ⟨.mutexUnlock, u⟩]) ∨
      s.transport ≠ .wirelessComm ∧ s.transport ≠ .xappWirelessComm := by
  rw [closeDownload, exec_get_bind] at hrun
  by_cases hwifi : s.transport = .wirelessComm
  · rw [if_pos hwifi] at hrun
    obtain ⟨t, rc₁, s₁, h₂, rfl, hpoll, hrest⟩ := exec_of_bind hrun
    refine .inl ⟨hwifi, rc₁, s₁, t, hpoll, ?_⟩
    by_cases hrc : rc₁ = .ok
    · rw [if_neg (not_not.mpr hrc)] at hrest
      obtain ⟨r, h₃, rfl, hunlock⟩ := exec_transact_bind.mp hrest
      obtain ⟨u, h₄, rfl, hend⟩ := exec_ask_bind.mp hunlock
      cases hend
      exact .inr ⟨hrc, r, u, rfl⟩
    · rw [if_pos hrc] at hrest
      obtain ⟨u, h₃, rfl, hend⟩ := exec_ask_bind.mp hrest
      cases hend
      exact .inl ⟨hrc, u, rfl⟩
  rw [if_neg hwifi] at hrun
  by_cases hxapp : s.transport = .xappWirelessComm
  · rw [if_pos hxapp] at hrun
    obtain ⟨r, h₁, rfl, hrest⟩ := exec_transact_bind.mp hrun
    obtain ⟨u, h₂, rfl, hend⟩ := exec_ask_bind.mp hrest
    cases hend
    exact .inr (.inl ⟨hxapp, r, u, rfl⟩)
  · exact .inr (.inr ⟨hwifi, hxapp⟩)

end Parts

/-! ### When the mode is restored -/

section Restores

variable {h t : History} {rc : Rc} {s s' : PtpRuntime} {w e : Event Op Op.Ret}

theorem closingPoll_eq {mid rest : History} (ht : ∀ x ∈ t, opens x = false) (hw : opens w = true)
    (hw' : polls w = false) (hmid : ∀ x ∈ mid, polls x = false) (he : polls e = true) :
    closingPoll (t ++ w :: (mid ++ e :: rest)) = e :: rest := by
  rw [closingPoll, List.dropWhile_append_of_pos fun x hx => by rw [ht x hx]; rfl,
    List.dropWhile_cons_of_neg (by simp [hw]), List.dropWhile_cons_of_pos (by simp [hw']),
    List.dropWhile_append_of_pos fun x hx => by rw [hmid x hx]; rfl,
    List.dropWhile_cons_of_neg (by simp [he])]

theorem closingPoll_of_none (ht : ∀ x ∈ h, opens x = false) : closingPoll h = [] := by
  have hdrop : h.dropWhile (!opens ·) = [] := by
    rw [List.dropWhile_eq_nil_iff]
    intro x hx
    rw [ht x hx]
    rfl
  rw [closingPoll, hdrop, List.dropWhile_nil]

theorem Op.Polling.writeOf_eq (he : e.1.Polling) : writeOf e = none := by
  obtain ⟨op, r⟩ := e
  cases op with
  | ptp c => cases c <;> first | rfl | exact he.elim
  | _ => rfl

theorem Op.Polling.opens_eq (he : e.1.Polling) : opens e = false := by
  obtain ⟨op, r⟩ := e
  cases op with
  | ptp c => cases c <;> first | rfl | exact he.elim
  | _ => rfl

theorem Op.Polling.not_refusesChunk (he : e.1.Polling) : ¬ RefusesChunk e := by
  obtain ⟨op, r⟩ := e
  cases op with
  | ptp c => cases c <;> first | exact id | exact he.elim
  | _ => exact id

theorem Op.Downloading.writeOf_eq (he : e.1.Downloading) : writeOf e = none := by
  obtain ⟨op, r⟩ := e
  cases op with
  | ptp c => cases c <;> first | rfl | exact he.elim
  | _ => rfl

theorem Op.Downloading.polls_eq (he : e.1.Downloading) : polls e = false := by
  obtain ⟨op, r⟩ := e
  cases op with
  | ptp c => cases c <;> first | rfl | exact he.elim
  | _ => rfl

/-- A finished download, cut into its parts. -/
theorem fujiDownloadFileEx_cases {fuel : ℕ} {handle : Int} {info : Bool}
    (hrun : Exec (fujiDownloadFileEx fuel handle info) s h rc s') :
    (rc ≠ .ok ∧ ∃ s₁, Exec openDownload s h rc s₁) ∨
      ∃ h₁ s₁ a h₂ exit s₂ h₃, h = h₁ ++ ⟨.mutexLock, a⟩ :: (h₂ ++ h₃) ∧
        Exec openDownload s h₁ .ok s₁ ∧ Exec (downloadObject fuel handle info) s₁ h₂ exit s₂ ∧
        s₂.transport = s.transport ∧
        ((∃ rc₁, exit = .cleanup rc₁ ∧ Exec (closeDownload rc₁) s₂ h₃ rc s') ∨
          (∃ rc₁, exit = .leave rc₁) ∧ h₃ = []) := by
  obtain ⟨h₁, rc₁, s₁, h₂, rfl, hopen, hrest⟩ := exec_of_bind hrun
  by_cases hrc : rc₁ = .ok
  · subst hrc
    rw [if_neg (by simp)] at hrest
    obtain ⟨a, h₃, rfl, hlocked⟩ := exec_ask_bind.mp hrest
    obtain ⟨h₄, exit, s₂, h₅, rfl, hobject, hend⟩ := exec_of_bind hlocked
    have hs₁ : s₁.transport = s.transport := (openDownload_respects s h₁ .ok s₁ hopen).2
    have hs₂ : s₂.transport = s₁.transport :=
      (wp_iff.mp (wp_downloadObject (h := []) (by simp [Untouched]) fuel info s₁) h₄ exit s₂
        hobject).1
    refine .inr ⟨h₁, s₁, a, h₄, exit, s₂, h₅, rfl, hopen, hobject, hs₂.trans hs₁, ?_⟩
    cases exit with
    | cleanup rc₂ => exact .inl ⟨rc₂, rfl, hend⟩
    | leave rc₂ =>
      cases hend
      exact .inr ⟨⟨_, rfl⟩, rfl⟩
  · rw [if_pos hrc] at hrest
    cases hrest
    rw [List.append_nil]
    exact .inl ⟨hrc, _, hopen⟩

theorem downloadObject_cleanup_iff {fuel : ℕ} {handle : Int} {info : Bool} {exit : Exit}
    (hrun : Exec (downloadObject fuel handle info) s h exit s') :
    (∃ rc, exit = .cleanup rc) ↔ Spared RefusesChunk h :=
  wp_iff.mp (wp_downloadObject_leave (h := []) (s := s) (by simp [Spared]) fuel info) h exit s' hrun

/-- Nothing is demanded of the other transports. -/
theorem restores_iff_of_other (hwifi : s.transport ≠ .wirelessComm)
    (hxapp : s.transport ≠ .xappWirelessComm) : Restores s.transport h ↔ ¬ Interrupted s h := by
  refine iff_of_true ⟨fun ht => absurd ht hwifi, fun ht => absurd ht hxapp⟩ ?_
  rintro (⟨ht, -⟩ | ⟨ht, -⟩)
  · exact hwifi ht
  · exact hxapp ht

theorem restores_wifi_iff (hwifi : s.transport = .wirelessComm) :
    Restores s.transport h ↔ ((dpcEnableCorrectFileSize, 1) ∈ writes h →
      lastWrite h dpcEnableCorrectFileSize = some 0) := by
  refine ⟨fun hr => hr.correctFileSize hwifi, fun hr => ⟨fun _ => hr, fun ht => ?_⟩⟩
  rw [hwifi] at ht
  cases ht

theorem interrupted_wifi_iff (hwifi : s.transport = .wirelessComm) :
    Interrupted s h ↔ (∃ e ∈ h, RefusesChunk e) ∨ ∃ e ∈ closingPoll h, FailsPoll e := by
  simp only [Interrupted, hwifi, reduceCtorEq, true_and, false_and, or_false]

theorem restores_xapp_iff (hxapp : s.transport = .xappWirelessComm) :
    Restores s.transport h ↔ lastWrite h dpcCompressSmall = some 2 := by
  refine ⟨fun hr => hr.compressSmall hxapp, fun hr => ⟨fun ht => ?_, fun _ => hr⟩⟩
  rw [hxapp] at ht
  cases ht

theorem interrupted_xapp_iff (hxapp : s.transport = .xappWirelessComm) :
    Interrupted s h ↔ s.compressImagesForSmartphone = true ∧ ∃ e ∈ h, RefusesChunk e := by
  simp only [Interrupted, hxapp, reduceCtorEq, true_and, false_and, false_or]

/-- Over WiFi, where the download has been left by the return: the property stays set. -/
theorem not_restores_wifi_leave (hwifi : s.transport = .wirelessComm) {r : Resp openingWrite}
    {a : Op.mutexLock.Ret} {hobj : History} (ht : ∀ x ∈ t, x.1.Polling)
    (hobj_ops : ∀ x ∈ hobj, x.1.Downloading) :
    ¬ Restores s.transport (t ++ [⟨.ptp openingWrite, r⟩] ++ ⟨.mutexLock, a⟩ :: (hobj ++ [])) := by
  have hwrites : writes (t ++ [⟨.ptp openingWrite, r⟩] ++ ⟨.mutexLock, a⟩ :: (hobj ++ []))
      = [(dpcEnableCorrectFileSize, 1)] := by
    rw [writes_append, writes_append, writes_of_none fun x hx => (ht x hx).writeOf_eq,
      List.append_nil]
    show _ ++ writes hobj = _
    rw [writes_of_none fun x hx => (hobj_ops x hx).writeOf_eq]
    rfl
  rw [restores_wifi_iff hwifi, lastWrite, hwrites]
  exact fun hr => absurd (hr (List.mem_singleton_self _)) (by decide)

/-- Over WiFi, where it has been left by the clean-up: the poll decides. -/
theorem interrupted_wifi_cleanup (hwifi : s.transport = .wirelessComm) {r : Resp openingWrite}
    {a : Op.mutexLock.Ret} {hobj tail : History} (ht : ∀ x ∈ t, x.1.Polling)
    (hobj_ops : ∀ x ∈ hobj, x.1.Downloading) (hspared : Spared RefusesChunk hobj)
    {rc₁ : Rc} {s₁ s₂ : PtpRuntime} {hpoll : History} (hevents : Exec fujiGetEvents s₁ hpoll rc₁ s₂)
    (htail : ∀ x ∈ tail, ¬ RefusesChunk x ∧ ¬ FailsPoll x) :
    Interrupted s (t ++ [⟨.ptp openingWrite, r⟩] ++ ⟨.mutexLock, a⟩ :: (hobj ++ (hpoll ++ tail))) ↔
      rc₁ ≠ .ok := by
  have hpolling := (fujiGetEvents_respects s₁ hpoll rc₁ s₂ hevents).1
  have hok := fujiGetEvents_ok_iff hevents
  obtain ⟨b, p, t', rfl⟩ := fujiGetEvents_starts hevents
  have hclosing : closingPoll (t ++ [⟨.ptp openingWrite, r⟩] ++ ⟨.mutexLock, a⟩ :: (hobj ++
      (⟨.mutexLock, b⟩ :: ⟨.ptp (.getPropValue dpcEventsList), p⟩ :: t' ++ tail))) =
      ⟨.ptp (.getPropValue dpcEventsList), p⟩ :: (t' ++ tail) := by
    have heq : closingPoll (t ++ ⟨.ptp openingWrite, r⟩ ::
        (⟨.mutexLock, a⟩ :: (hobj ++ [⟨.mutexLock, b⟩]) ++
          ⟨.ptp (.getPropValue dpcEventsList), p⟩ :: (t' ++ tail))) =
        ⟨.ptp (.getPropValue dpcEventsList), p⟩ :: (t' ++ tail) :=
      closingPoll_eq (fun x hx => (ht x hx).opens_eq) rfl rfl ?_ rfl
    · simpa using heq
    · intro x hx
      simp only [List.mem_cons, List.mem_append, List.not_mem_nil, or_false] at hx
      rcases hx with rfl | hx | rfl
      · rfl
      · exact (hobj_ops x hx).polls_eq
      · rfl
  have hchunk : ¬ ∃ e ∈ t ++ [⟨.ptp openingWrite, r⟩] ++ ⟨.mutexLock, a⟩ :: (hobj ++
      (⟨.mutexLock, b⟩ :: ⟨.ptp (.getPropValue dpcEventsList), p⟩ :: t' ++ tail)),
      RefusesChunk e := by
    rintro ⟨e, he, hrefused⟩
    simp only [List.cons_append, List.mem_append, List.mem_cons, List.not_mem_nil, or_false] at he
    rcases he with (he | rfl) | rfl | he | rfl | rfl | he | he
    · exact (ht e he).not_refusesChunk hrefused
    · exact hrefused
    · exact hrefused
    · exact hspared e he hrefused
    · exact hrefused
    · exact hrefused
    · exact Op.Polling.not_refusesChunk (hpolling e (by simp [he])) hrefused
    · exact (htail e he).1 hrefused
  rw [interrupted_wifi_iff hwifi, or_iff_right hchunk, hclosing, ne_eq, hok]
  constructor
  · rintro ⟨e, he, hfails⟩ hall
    rw [← List.cons_append] at he
    rcases List.mem_append.mp he with he | he
    · exact hall e (List.mem_cons_of_mem _ he) hfails
    · exact (htail e he).2 hfails
  · intro hne
    by_contra hnone
    refine hne fun e he hfails => ?_
    rcases List.mem_cons.mp he with rfl | he
    · exact hfails
    · exact hnone ⟨e, List.mem_append_left tail he, hfails⟩

/-- Over WiFi, where it has been left by the clean-up: the property is restored just if the poll
does not fail. -/
theorem restores_wifi_cleanup (hwifi : s.transport = .wirelessComm) {r : Resp openingWrite}
    {a : Op.mutexLock.Ret} {hobj tail : History} (ht : ∀ x ∈ t, x.1.Polling)
    (hobj_ops : ∀ x ∈ hobj, x.1.Downloading)
    {rc₁ : Rc} {s₁ s₂ : PtpRuntime} {hpoll : History} (hevents : Exec fujiGetEvents s₁ hpoll rc₁ s₂) :
    Restores s.transport
        (t ++ [⟨.ptp openingWrite, r⟩] ++ ⟨.mutexLock, a⟩ :: (hobj ++ (hpoll ++ tail))) ↔
      Assignments.last ((dpcEnableCorrectFileSize, 1) :: writes tail)
        dpcEnableCorrectFileSize = some 0 := by
  have hpolling := (fujiGetEvents_respects s₁ hpoll rc₁ s₂ hevents).1
  have hwrites : writes (t ++ [⟨.ptp openingWrite, r⟩] ++
      ⟨.mutexLock, a⟩ :: (hobj ++ (hpoll ++ tail)))
      = (dpcEnableCorrectFileSize, 1) :: writes tail := by
    rw [writes_append, writes_append, writes_of_none fun x hx => (ht x hx).writeOf_eq]
    show _ ++ writes (hobj ++ (hpoll ++ tail)) = _
    rw [writes_append, writes_append, writes_of_none fun x hx => (hobj_ops x hx).writeOf_eq,
      writes_of_none fun x hx => (hpolling x hx).writeOf_eq]
    rfl
  rw [restores_wifi_iff hwifi, lastWrite, hwrites]
  exact ⟨fun hr => hr (List.mem_cons_self ..), fun hr _ => hr⟩

/-- The writes of a download over XAPP. -/
theorem writes_xapp {r : Resp (compressWrite s)} {a : Op.mutexLock.Ret} {hobj tail : History}
    (hobj_ops : ∀ x ∈ hobj, x.1.Downloading) :
    writes ([⟨.ptp (compressWrite s), r⟩] ++ ⟨.mutexLock, a⟩ :: (hobj ++ tail))
      = (dpcCompressSmall, if s.compressImagesForSmartphone then 1 else 2) :: writes tail := by
  show _ :: writes (hobj ++ tail) = _
  rw [writes_append, writes_of_none fun x hx => (hobj_ops x hx).writeOf_eq]
  rfl

theorem restores_xapp_cleanup (hxapp : s.transport = .xappWirelessComm)
    {r : Resp (compressWrite s)} {r' : Resp uncompressWrite} {a : Op.mutexLock.Ret}
    {u : Op.mutexUnlock.Ret} {hobj : History} (hobj_ops : ∀ x ∈ hobj, x.1.Downloading)
    (hspared : Spared RefusesChunk hobj) :
    Restores s.transport ([⟨.ptp (compressWrite s), r⟩] ++ ⟨.mutexLock, a⟩ ::
        (hobj ++ [⟨.ptp uncompressWrite, r'⟩, ⟨.mutexUnlock, u⟩])) ↔
      ¬ Interrupted s ([⟨.ptp (compressWrite s), r⟩] ++ ⟨.mutexLock, a⟩ ::
        (hobj ++ [⟨.ptp uncompressWrite, r'⟩, ⟨.mutexUnlock, u⟩])) := by
  rw [restores_xapp_iff hxapp, interrupted_xapp_iff hxapp, lastWrite, writes_xapp hobj_ops]
  refine iff_of_true rfl ?_
  rintro ⟨-, e, he, hrefused⟩
  simp only [List.mem_append, List.mem_cons, List.not_mem_nil, or_false] at he
  rcases he with rfl | rfl | he | rfl | rfl
  · exact hrefused
  · exact hrefused
  · exact hspared e he hrefused
  · exact hrefused
  · exact hrefused

/-- Over XAPP, where the download has been left by the return, the first write is the last. -/
theorem restores_xapp_leave (hxapp : s.transport = .xappWirelessComm)
    {r : Resp (compressWrite s)} {a : Op.mutexLock.Ret} {hobj : History}
    (hobj_ops : ∀ x ∈ hobj, x.1.Downloading) (hrefused : ∃ e ∈ hobj, RefusesChunk e) :
    Restores s.transport ([⟨.ptp (compressWrite s), r⟩] ++ ⟨.mutexLock, a⟩ :: (hobj ++ [])) ↔
      ¬ Interrupted s ([⟨.ptp (compressWrite s), r⟩] ++ ⟨.mutexLock, a⟩ :: (hobj ++ [])) := by
  obtain ⟨e, he, hre⟩ := hrefused
  have hex : ∃ e ∈ [⟨.ptp (compressWrite s), r⟩] ++ ⟨.mutexLock, a⟩ :: (hobj ++ []),
      RefusesChunk e := ⟨e, by simp [he], hre⟩
  rw [restores_xapp_iff hxapp, interrupted_xapp_iff hxapp, and_iff_left hex, lastWrite,
    writes_xapp hobj_ops]
  show Assignments.last [_] dpcCompressSmall = _ ↔ _
  cases s.compressImagesForSmartphone <;> simp [Assignments.last]

/-- **When a download leaves the camera as it should be**: unless the camera refuses a chunk, or
fails the poll behind the download. -/
theorem fujiDownloadFileEx_restores_iff {fuel : ℕ} {handle : Int} {info : Bool}
    (hrun : Exec (fujiDownloadFileEx fuel handle info) s h rc s') :
    Restores s.transport h ↔ ¬ Interrupted s h := by
  rcases fujiDownloadFileEx_cases hrun with ⟨hrc, s₁, hopen⟩ |
    ⟨h₁, s₁, a, hobj, exit, s₂, h₃, rfl, hopen, hobject, hs₂, hexit⟩
  -- the first poll has failed, and nothing is written
  · rcases openDownload_cases hopen with ⟨hwifi, t, ht, ⟨-, rfl⟩ | ⟨hok, -⟩⟩ | ⟨-, hok, -⟩ |
      ⟨-, -, hok, -⟩
    · rw [restores_wifi_iff hwifi, interrupted_wifi_iff hwifi,
        writes_of_none fun x hx => (ht x hx).writeOf_eq,
        closingPoll_of_none fun x hx => (ht x hx).opens_eq]
      refine iff_of_true (fun hmem => absurd hmem (List.not_mem_nil)) ?_
      rintro (⟨e, he, hrefused⟩ | ⟨e, he, -⟩)
      · exact (ht e he).not_refusesChunk hrefused
      · exact absurd he (List.not_mem_nil)
    · exact absurd hok hrc
    · exact absurd hok hrc
    · exact absurd hok hrc
  have hops : ∀ x ∈ hobj, x.1.Downloading :=
    fun x hx => downloadObject_issues fuel handle info s₁ hobj hobject.reaches x hx
  have hcleanup := downloadObject_cleanup_iff hobject
  have hleave (rc₁ : Rc) (heq : exit = .leave rc₁) : ∃ e ∈ hobj, RefusesChunk e := by
    by_contra hnone
    obtain ⟨rc₂, hrc₂⟩ := hcleanup.mpr fun e he hrefused => hnone ⟨e, he, hrefused⟩
    cases heq.symm.trans hrc₂
  rcases openDownload_cases hopen with ⟨hwifi, t, ht, ⟨hne, -⟩ | ⟨-, r, rfl⟩⟩ |
    ⟨hxapp, -, r, rfl⟩ | ⟨hwifi, hxapp, -, -⟩
  · exact absurd rfl hne
  -- over WiFi
  · rcases hexit with ⟨rc₁, rfl, hclose⟩ | ⟨⟨rc₁, rfl⟩, rfl⟩
    · have hspared := hcleanup.mp ⟨rc₁, rfl⟩
      rcases closeDownload_cases hclose with ⟨-, rc₂, s₃, hpoll, hevents,
        ⟨hne, u, rfl⟩ | ⟨hok, r', u, rfl⟩⟩ | ⟨hxapp, -⟩ | ⟨hother, -⟩
      · rw [restores_wifi_cleanup hwifi ht hops hevents,
          interrupted_wifi_cleanup hwifi ht hops hspared hevents
            (List.forall_mem_singleton.mpr ⟨id, id⟩)]
        refine iff_of_false ?_ (not_not.mpr hne)
        show ¬ Assignments.last [(dpcEnableCorrectFileSize, 1)] dpcEnableCorrectFileSize
          = some (0 : UInt16)
        decide
      · rw [restores_wifi_cleanup hwifi ht hops hevents,
          interrupted_wifi_cleanup hwifi ht hops hspared hevents
            (List.forall_mem_cons.mpr ⟨⟨id, id⟩, List.forall_mem_singleton.mpr ⟨id, id⟩⟩)]
        refine iff_of_true ?_ (not_not.mpr hok)
        show Assignments.last [(dpcEnableCorrectFileSize, 1), (dpcEnableCorrectFileSize, 0)]
          dpcEnableCorrectFileSize = some (0 : UInt16)
        decide
      · rw [hs₂, hwifi] at hxapp
        cases hxapp
      · exact absurd (hs₂.trans hwifi) hother
    · refine iff_of_false (not_restores_wifi_leave hwifi ht hops) (not_not.mpr ?_)
      obtain ⟨e, he, hrefused⟩ := hleave rc₁ rfl
      exact (interrupted_wifi_iff hwifi).mpr (.inl ⟨e, by simp [he], hrefused⟩)
  -- over XAPP
  · rcases hexit with ⟨rc₁, rfl, hclose⟩ | ⟨⟨rc₁, rfl⟩, rfl⟩
    · rcases closeDownload_cases hclose with ⟨hwifi, -⟩ | ⟨-, r', u, rfl⟩ | ⟨-, hother⟩
      · rw [hs₂, hxapp] at hwifi
        cases hwifi
      · exact restores_xapp_cleanup hxapp hops (hcleanup.mp ⟨rc₁, rfl⟩)
      · exact absurd (hs₂.trans hxapp) hother
    · exact restores_xapp_leave hxapp hops (hleave rc₁ rfl)
  · exact restores_iff_of_other hwifi hxapp

/-- The camera knows nothing of the object. -/
theorem fujiDownloadFileEx_restores_unknown : ∃ h s',
    Exec (fujiDownloadFileEx 1 7 false) wirelessRuntime h .ok s' ∧
    (Restores wirelessRuntime.transport h ↔ ¬ Interrupted wirelessRuntime h) := by
  obtain ⟨h, hopen, -⟩ := openDownload_run (s := wirelessRuntime) rfl
  let s₁ := (wirelessRuntime.answered []).answered []
  obtain ⟨h', hclose, -⟩ := closeDownload_run .checkCode (s := s₁.answered []) rfl
  have hobject : Exec (downloadObject 1 7 false) s₁ _ (.cleanup .checkCode) (s₁.answered []) :=
    exec_bind (exec_transact ⟨.checkCode, [], ObjectInfo.zero⟩) <|
      exec_ite_pos (by simp) (exec_pure _)
  have hrun : Exec (fujiDownloadFileEx 1 7 false) wirelessRuntime _ .ok _ :=
    exec_bind hopen <| exec_ite_neg (by simp) <| exec_bind (exec_ask ()) <|
      exec_bind hobject hclose
  exact ⟨_, _, hrun, fujiDownloadFileEx_restores_iff hrun⟩

/-- The first chunk is refused: the property keeps the value 1. -/
theorem fujiDownloadFileEx_refusedChunk :
    ¬ ∀ h rc s', Exec (fujiDownloadFileEx 1 7 false) wirelessRuntime h rc s' →
      Restores wirelessRuntime.transport h := by
  intro hrestores
  obtain ⟨h, hopen, -⟩ := openDownload_run (s := wirelessRuntime) rfl
  let s₁ := (wirelessRuntime.answered []).answered []
  have hobject : Exec (downloadObject 1 7 false) s₁ _ (.leave .ioErr) _ :=
    exec_bind (exec_transact ⟨.ok, [], smallObject⟩) <| exec_ite_neg (by simp) <|
      exec_bind (exec_ask ()) <| exec_ite_neg (by simp) <|
      exec_bind (exec_ask false) <| exec_ite_neg (by simp) <|
      exec_bind (exec_transact ⟨.ioErr, [], ()⟩) <| exec_ite_neg (by simp) <|
      exec_ite_pos (by simp) <| exec_bind (exec_ask ()) (exec_pure _)
  have hrun : Exec (fujiDownloadFileEx 1 7 false) wirelessRuntime _ .ioErr _ :=
    exec_bind hopen <| exec_ite_neg (by simp) <| exec_bind (exec_ask ()) <|
      exec_bind hobject (exec_pure _)
  have hops := downloadObject_issues 1 7 false s₁ _ hobject.reaches
  have hleft := hrestores _ .ioErr _ hrun
  rcases openDownload_cases hopen with ⟨hwifi, t, ht, ⟨hne, -⟩ | ⟨-, r, rfl⟩⟩ |
    ⟨hxapp, -⟩ | ⟨hwifi, -⟩
  · exact hne rfl
  · exact not_restores_wifi_leave hwifi ht hops hleft
  · cases hxapp
  · exact hwifi rfl

end Restores

end Fuji
