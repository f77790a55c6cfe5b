/-
Handing the contents of a live file to the frontend (`app_ptp_download_file` in `module.c`).

The loop infers the end of the object from a chunk that is not full.  Between two turns all
chunks have been full (`FullSoFar`), so what it has handed on ends at `read`; the turn it stops
in decides whether that is the end of the object.

`appPtpDownloadFile_delivers_iff` gives the exact streams of chunks for which this is right: no
chunk is empty, and just the one that ends the object is not full (`Fits`).
-/
import LibFuji.DownloadLoop

namespace Fuji

open Interaction

/-! ### The code -/

/-- `app_ptp_download_file` behind its loop. -/
def endDownload (oi : ObjectInfo) (index : Int) (read : UInt32) : PtpM Rc := do
  let _ ← ask (.addFileContents index liveStorageDeviceName none 0 read oi.compressedSize)
  return .ok

/-- The loop of `app_ptp_download_file`, `fuel` times more at most, with what follows it. -/
def appPtpDownloadLoop (oi : ObjectInfo) (objectId : Int) (maxChunkSize : UInt32) (index : Int) :
    ℕ → UInt32 → PtpM Rc
  | 0, _ => hang
  | fuel + 1, read => do
    ptpMutexLock
    let r ← transact (.getPartialObject objectId read maxChunkSize)
    if r.rc ≠ .ok then
      ptpMutexUnlock
      return r.rc
    else
      let s ← get
      let partialLen := s.payload.length
      if partialLen = 0 then
        ptpMutexUnlock
        endDownload oi index read
      else
        let _ ← ask (.addFileContents index liveStorageDeviceName (some s.payload) partialLen read
          oi.compressedSize)
        ptpMutexUnlock
        let read := read + UInt32.ofNat partialLen
        if partialLen ≠ maxChunkSize.toNat then endDownload oi index read
        else appPtpDownloadLoop oi objectId maxChunkSize index fuel read

/-- `app_ptp_download_file`. -/
def appPtpDownloadFile (fuel : ℕ) (oi : ObjectInfo) (objectId : Int) (maxChunkSize : UInt32)
    (index : Int) : PtpM Rc :=
  appPtpDownloadLoop oi objectId maxChunkSize index fuel 0

/-! ### What is delivered -/

/-- The chunk that the frontend is handed, with its offset, if any. -/
def contentsOf : Event Op Op.Ret → Option (UInt32 × List UInt8)
  | ⟨.addFileContents _ _ (some data) size offset _, _⟩ => some (offset, data.take size)
  | _ => none

/-- The chunks that the frontend has been handed, in their order. -/
def contents (h : History) : List (UInt32 × List UInt8) := h.filterMap contentsOf

/-- The bytes of chunks. -/
def contentBytes (cs : List (UInt32 × List UInt8)) : ℕ := (cs.map (·.2.length)).sum

/-- The chunks follow one another from `pos` on. -/
def FollowsFrom : ℕ → List (UInt32 × List UInt8) → Prop
  | _, [] => True
  | pos, c :: cs => c.1.toNat = pos ∧ FollowsFrom (pos + c.2.length) cs

/-- The offset that a chunk is requested at. -/
def requestOf : Event Op Op.Ret → Option UInt32
  | ⟨.ptp (.getPartialObject _ offset _), _⟩ => some offset
  | _ => none

/-- The offsets that chunks have been requested at. -/
def requests (h : History) : List UInt32 := h.filterMap requestOf

/-- The length of a chunk that the camera sends. -/
def lengthOf : Event Op Op.Ret → Option ℕ
  | ⟨.ptp (.getPartialObject handle offset size), r⟩ =>
    let r : Resp (.getPartialObject handle offset size) := r
    if r.rc = .ok then some r.payload.length else none
  | _ => none

/-- The lengths of the chunks that the camera has sent. -/
def lengths (h : History) : List ℕ := h.filterMap lengthOf

/-- What a download of `size` bytes owes: it succeeds just with the whole object, and asks for
nothing behind its end. -/
structure Delivers (size : UInt32) (h : History) (rc : Rc) : Prop where
  reported : rc = .ok ↔ FollowsFrom 0 (contents h) ∧ contentBytes (contents h) = size.toNat
  inside : ∀ offset ∈ requests h, offset < size

/-- A camera sends no chunk that is longer than `max` or reaches behind the end of the object. -/
def KeepsInside (size max : UInt32) : Event Op Op.Ret → Prop
  | ⟨.ptp (.getPartialObject handle offset cur), r⟩ =>
    let r : Resp (.getPartialObject handle offset cur) := r
    r.rc = .ok → r.payload.length ≤ max.toNat ∧ offset.toNat + r.payload.length ≤ size.toNat
  | _ => True

/-- The lengths of chunks from `pos` on by which the end of an object can be told: none is empty,
and just the chunk that ends the object is not full. -/
def Fits (size max : ℕ) : ℕ → List ℕ → Prop
  | _, [] => True
  | pos, l :: ls => l ≠ 0 ∧ (l = max ↔ pos + l ≠ size) ∧ Fits size max (pos + l) ls

/-! ### Between two turns -/

section Turns

variable {size max read : UInt32} {h t : History} {rc : Rc}

theorem contents_append : contents (h ++ t) = contents h ++ contents t := List.filterMap_append

theorem requests_append : requests (h ++ t) = requests h ++ requests t := List.filterMap_append

theorem lengths_append : lengths (h ++ t) = lengths h ++ lengths t := List.filterMap_append

theorem lengthOf_ok {handle : Int} {offset cur : UInt32}
    {r : Resp (.getPartialObject handle offset cur)} (hr : r.rc = .ok) :
    lengthOf ⟨.ptp (.getPartialObject handle offset cur), r⟩ = some r.payload.length := if_pos hr

theorem lengthOf_refused {handle : Int} {offset cur : UInt32}
    {r : Resp (.getPartialObject handle offset cur)} (hr : r.rc ≠ .ok) :
    lengthOf ⟨.ptp (.getPartialObject handle offset cur), r⟩ = none := if_neg hr

theorem contentBytes_snoc (cs : List (UInt32 × List UInt8)) (c : UInt32 × List UInt8) :
    contentBytes (cs ++ [c]) = contentBytes cs + c.2.length := by
  simp [contentBytes]

theorem follows_snoc {cs : List (UInt32 × List UInt8)} {c : UInt32 × List UInt8} {pos : ℕ} :
    FollowsFrom pos (cs ++ [c]) ↔ FollowsFrom pos cs ∧ c.1.toNat = pos + contentBytes cs := by
  induction cs generalizing pos with
  | nil => simp [FollowsFrom, contentBytes]
  | cons c' cs ih =>
    rw [List.cons_append, FollowsFrom, ih, FollowsFrom, and_assoc, contentBytes, contentBytes,
      List.map_cons, List.sum_cons, Nat.add_assoc]

theorem fits_snoc {size max l pos : ℕ} {ls : List ℕ} :
    Fits size max pos (ls ++ [l]) ↔
      Fits size max pos ls ∧ l ≠ 0 ∧ (l = max ↔ pos + ls.sum + l ≠ size) := by
  induction ls generalizing pos with
  | nil => simp [Fits]
  | cons l' ls ih =>
    rw [List.cons_append, Fits, ih, Fits, List.sum_cons, and_assoc, and_assoc, Nat.add_assoc pos]

/-- Where the loop stands: all chunks have been full and have been handed on. -/
structure FullSoFar (size max read : UInt32) (h : History) : Prop where
  follows : FollowsFrom 0 (contents h)
  bytes : contentBytes (contents h) = read.toNat
  sent : (lengths h).sum = read.toNat
  inside : ∀ offset ∈ requests h, offset < size
  within : read.toNat ≤ size.toNat
  fits : Fits size.toNat max.toNat 0 (lengths h) ↔ read.toNat < size.toNat

/-- A turn in which the camera refuses the chunk: it is right not to succeed while there is more
to come. -/
theorem FullSoFar.refused (hinv : FullSoFar size max read h) (hrc : rc ≠ .ok)
    (hcontents : contents t = []) (hlengths : lengths t = []) (hrequests : requests t = [read]) :
    Delivers size (h ++ t) rc ↔ Fits size.toNat max.toNat 0 (lengths (h ++ t)) := by
  rw [lengths_append, hlengths, List.append_nil, hinv.fits]
  have hbytes := hinv.bytes
  have hwithin := hinv.within
  constructor
  · intro hd
    have hread : read < size := hd.inside read (by simp [requests_append, hrequests])
    exact UInt32.lt_iff_toNat_lt.mp hread
  · intro hlt
    refine ⟨iff_of_false hrc fun hall => ?_, fun offset hoffset => ?_⟩
    · have hsum := hall.2
      rw [contents_append, hcontents, List.append_nil] at hsum
      omega
    · rw [requests_append, hrequests] at hoffset
      rcases List.mem_append.mp hoffset with hoffset | hoffset
      · exact hinv.inside offset hoffset
      · rw [List.mem_singleton.mp hoffset]
        exact UInt32.lt_iff_toNat_lt.mpr hlt

/-- A turn with an empty chunk is never right. -/
theorem FullSoFar.empty (hinv : FullSoFar size max read h) (hcontents : contents t = [])
    (hlengths : lengths t = [0]) (hrequests : requests t = [read]) :
    Delivers size (h ++ t) .ok ↔ Fits size.toNat max.toNat 0 (lengths (h ++ t)) := by
  rw [lengths_append, hlengths, fits_snoc]
  refine iff_of_false (fun hd => ?_) fun hfits => hfits.2.1 rfl
  have hread : read < size := hd.inside read (by simp [requests_append, hrequests])
  have hlt := UInt32.lt_iff_toNat_lt.mp hread
  have hsum := (hd.reported.mp rfl).2
  rw [contents_append, hcontents, List.append_nil, hinv.bytes] at hsum
  omega

section Chunk

variable {data : List UInt8}

/-- A turn with a chunk that is not full is right where it ends the object. -/
theorem FullSoFar.last (hinv : FullSoFar size max read h) (hdata : data.length ≠ 0)
    (hinside : read.toNat + data.length ≤ size.toNat) (hshort : data.length ≠ max.toNat)
    (hcontents : contents t = [(read, data)]) (hlengths : lengths t = [data.length])
    (hrequests : requests t = [read]) :
    Delivers size (h ++ t) .ok ↔ Fits size.toNat max.toNat 0 (lengths (h ++ t)) := by
  have hlt : read.toNat < size.toNat := by omega
  have hfollows : FollowsFrom 0 (contents (h ++ t)) := by
    rw [contents_append, hcontents, follows_snoc, hinv.bytes, Nat.zero_add]
    exact ⟨hinv.follows, rfl⟩
  have hrequested : ∀ offset ∈ requests (h ++ t), offset < size := by
    intro offset hoffset
    rw [requests_append, hrequests] at hoffset
    rcases List.mem_append.mp hoffset with hoffset | hoffset
    · exact hinv.inside offset hoffset
    · rw [List.mem_singleton.mp hoffset]
      exact UInt32.lt_iff_toNat_lt.mpr hlt
  have hbytes : contentBytes (contents (h ++ t)) = read.toNat + data.length := by
    rw [contents_append, hcontents, contentBytes_snoc, hinv.bytes]
  rw [lengths_append, hlengths, fits_snoc, hinv.fits, hinv.sent, Nat.zero_add]
  constructor
  · intro hd
    have hsum := (hd.reported.mp rfl).2
    exact ⟨hlt, hdata, iff_of_false hshort (not_not.mpr (by omega))⟩
  · rintro ⟨-, -, hend⟩
    have hsize : read.toNat + data.length = size.toNat := not_not.mp fun hne => hshort (hend.mpr hne)
    exact ⟨iff_of_true rfl ⟨hfollows, hbytes.trans hsize⟩, hrequested⟩

/-- Behind a full chunk the loop stands where the chunk ends. -/
theorem FullSoFar.next (hinv : FullSoFar size max read h) (hdata : data.length ≠ 0)
    (hinside : read.toNat + data.length ≤ size.toNat) (hfull : data.length = max.toNat)
    (hcontents : contents t = [(read, data)]) (hlengths : lengths t = [data.length])
    (hrequests : requests t = [read]) :
    FullSoFar size max (read + UInt32.ofNat data.length) (h ++ t) where
  follows := by
    rw [contents_append, hcontents, follows_snoc, hinv.bytes, Nat.zero_add]
    exact ⟨hinv.follows, rfl⟩
  bytes := by
    rw [contents_append, hcontents, contentBytes_snoc, hinv.bytes, toNat_read hinside]
  sent := by
    rw [lengths_append, hlengths, List.sum_append, List.sum_singleton, hinv.sent,
      toNat_read hinside]
  inside offset hoffset := by
    rw [requests_append, hrequests] at hoffset
    rcases List.mem_append.mp hoffset with hoffset | hoffset
    · exact hinv.inside offset hoffset
    · rw [List.mem_singleton.mp hoffset, UInt32.lt_iff_toNat_lt]
      omega
  within := by rwa [toNat_read hinside]
  fits := by
    rw [lengths_append, hlengths, fits_snoc, hinv.fits, hinv.sent, Nat.zero_add,
      toNat_read hinside, iff_true_left hfull]
    omega

end Chunk

end Turns

/-! ### The loop -/

section Loop

variable {oi : ObjectInfo} {max read : UInt32} {objectId index : Int} {h : History}
  {s : PtpRuntime}

/-- What a download that has come to its end says. -/
abbrev Judged (size max : UInt32) (h : History) (rc : Rc) (_s : PtpRuntime) : Prop :=
  Delivers size h rc ↔ Fits size.toNat max.toNat 0 (lengths h)

theorem endDownload_sure {A : Event Op Op.Ret → Prop}
    (hjudged : Judged oi.compressedSize max
      (h ++ [⟨.addFileContents index liveStorageDeviceName none 0 read oi.compressedSize, ()⟩])
      .ok s) :
    Sure A (fun _ => True) (endDownload oi index read) (Judged oi.compressedSize max) h s := by
  rw [endDownload, sure_ask_bind]
  exact ⟨trivial, fun _ _ => sure_pure trivial hjudged⟩

/-- **The loop comes to its end, and is right about the object just where its end can be told.** -/
theorem appPtpDownloadLoop_sure {fuel : ℕ} (hinv : FullSoFar oi.compressedSize max read h)
    (hfuel : oi.compressedSize.toNat - read.toNat < fuel) :
    Sure (KeepsInside oi.compressedSize max) (fun _ => True)
      (appPtpDownloadLoop oi objectId max index fuel read) (Judged oi.compressedSize max) h s := by
  induction fuel generalizing read h s with
  | zero => omega
  | succ fuel ih =>
    rw [appPtpDownloadLoop, ptpMutexLock, sure_ask_bind]
    refine ⟨trivial, fun locked _ => ?_⟩
    rw [sure_transact_bind]
    refine ⟨trivial, fun r hkeeps => ?_⟩
    rw [sure_ite]
    refine ⟨fun hrc => ?_, fun hok => ?_⟩
    -- refused
    · rw [ptpMutexUnlock, sure_ask_bind]
      refine ⟨trivial, fun unlocked _ => sure_pure trivial ?_⟩
      have hlengths : lengths [⟨.mutexLock, locked⟩, ⟨.ptp (.getPartialObject objectId read max), r⟩,
          ⟨.mutexUnlock, unlocked⟩] = [] := by
        rw [lengths, List.filterMap_cons_none rfl, List.filterMap_cons_none (lengthOf_refused hrc)]
        rfl
      simpa only [List.append_assoc, List.cons_append, List.nil_append] using hinv.refused hrc rfl hlengths rfl
    obtain ⟨hmax, hinside⟩ := hkeeps (not_not.mp hok)
    rw [sure_get_bind, PtpRuntime.answered_payload, sure_ite]
    refine ⟨fun hnil => ?_, fun hdata => ?_⟩
    -- empty
    · have hnil' : r.payload.length = 0 := hnil
      rw [ptpMutexUnlock, sure_ask_bind]
      refine ⟨trivial, fun unlocked _ => endDownload_sure ?_⟩
      have hlengths : lengths [⟨.mutexLock, locked⟩, ⟨.ptp (.getPartialObject objectId read max), r⟩,
          ⟨.mutexUnlock, unlocked⟩,
          ⟨.addFileContents index liveStorageDeviceName none 0 read oi.compressedSize, ()⟩] = [0] := by
        rw [lengths, List.filterMap_cons_none rfl,
          List.filterMap_cons_some (lengthOf_ok (not_not.mp hok)), hnil']
        rfl
      simpa only [List.append_assoc, List.cons_append, List.nil_append] using hinv.empty rfl hlengths rfl
    -- handed on
    rw [sure_ask_bind]
    refine ⟨trivial, fun added _ => ?_⟩
    rw [ptpMutexUnlock, sure_ask_bind]
    refine ⟨trivial, fun unlocked _ => ?_⟩
    let t : History := [⟨.mutexLock, locked⟩, ⟨.ptp (.getPartialObject objectId read max), r⟩,
      ⟨.addFileContents index liveStorageDeviceName (some r.payload) r.payload.length read
        oi.compressedSize, added⟩, ⟨.mutexUnlock, unlocked⟩]
    have hcontents : contents t = [(read, r.payload)] := by
      show [(read, r.payload.take r.payload.length)] = _
      rw [List.take_length]
    have hlengths : lengths t = [r.payload.length] := by
      rw [lengths, List.filterMap_cons_none rfl,
        List.filterMap_cons_some (lengthOf_ok (not_not.mp hok))]
      rfl
    have hdata' : r.payload.length ≠ 0 := hdata
    rw [sure_ite]
    refine ⟨fun hshort => endDownload_sure ?_, fun hfull => ?_⟩
    · have hlast := hinv.last (t := t ++ [⟨.addFileContents index liveStorageDeviceName none 0
          (read + UInt32.ofNat r.payload.length) oi.compressedSize, ()⟩]) hdata' hinside hshort
        (by rw [contents_append, hcontents]; rfl) (by rw [lengths_append, hlengths]; rfl) rfl
      simpa only [t, List.append_assoc, List.cons_append, List.nil_append] using hlast
    · have hnext := hinv.next hdata' hinside (not_not.mp hfull) hcontents hlengths rfl
      have hread := toNat_read hinside
      have hgoal := ih (s := s.answered r.payload) hnext (by omega)
      simpa only [t, List.append_assoc, List.cons_append, List.nil_append] using hgoal

/-- **When the download of a live file is right about the object**: it always comes to its end, and
then it has succeeded just with the whole object, asking for nothing behind its end, if no chunk
was empty and just the chunk that ends the object was not full. -/
theorem appPtpDownloadFile_delivers_iff (objectId index : Int) (max : UInt32) {oi : ObjectInfo}
    (hsize : oi.compressedSize ≠ 0) (s : PtpRuntime) {fuel : ℕ}
    (hfuel : oi.compressedSize.toNat < fuel) {h : History}
    (hkeeps : ∀ e ∈ h, KeepsInside oi.compressedSize max e) :
    ¬ Hangs (appPtpDownloadFile fuel oi objectId max index) s h ∧
      ∀ rc s', Exec (appPtpDownloadFile fuel oi objectId max index) s h rc s' →
        (Delivers oi.compressedSize h rc ↔
          Fits oi.compressedSize.toNat max.toNat 0 (lengths h)) := by
  have hpos : 0 < oi.compressedSize.toNat :=
    UInt32.lt_iff_toNat_lt.mp (UInt32.pos_iff_ne_zero.mpr hsize)
  have hstart : FullSoFar oi.compressedSize max 0 [] :=
    ⟨trivial, rfl, rfl, by simp [requests], Nat.zero_le _, iff_of_true trivial hpos⟩
  have hsure : Sure (KeepsInside oi.compressedSize max) (fun _ => True)
      (appPtpDownloadLoop oi objectId max index fuel 0) (Judged oi.compressedSize max) [] s :=
    appPtpDownloadLoop_sure hstart (by simpa using hfuel)
  obtain ⟨hhang, -, hrun⟩ := hsure.of_answers hkeeps
  exact ⟨hhang, hrun⟩

/-- A full chunk of two bytes and one of one byte. -/
theorem appPtpDownloadFile_delivers_twoChunks : ∃ h s',
    Exec (appPtpDownloadFile 4 smallObject 1 2 0) fujiPtpNew h .ok s' ∧
      Delivers smallObject.compressedSize h .ok := by
  have hrun : Exec (appPtpDownloadFile 4 smallObject 1 2 0) fujiPtpNew _ .ok _ :=
    exec_bind (exec_ask ()) <| exec_bind (exec_transact ⟨.ok, [1, 2], ()⟩) <|
      exec_ite_neg (by simp) <| exec_bind exec_get <| exec_ite_neg (by simp) <|
      exec_bind (exec_ask ()) <| exec_bind (exec_ask ()) <| exec_ite_neg (by simp) <|
      exec_bind (exec_ask ()) <| exec_bind (exec_transact ⟨.ok, [3], ()⟩) <|
      exec_ite_neg (by simp) <| exec_bind exec_get <| exec_ite_neg (by simp) <|
      exec_bind (exec_ask ()) <| exec_bind (exec_ask ()) <| exec_ite_pos (by simp) <|
      exec_bind (exec_ask ()) (exec_pure _)
  refine ⟨_, _, hrun, ((appPtpDownloadFile_delivers_iff 1 0 2 (by decide) fujiPtpNew
    (by decide) ?_).2 _ _ hrun).mpr ?_⟩
  · simp only [List.cons_append, List.nil_append, List.forall_mem_cons, List.not_mem_nil,
      IsEmpty.forall_iff, implies_true, KeepsInside]
    decide
  · show Fits 3 2 0 [2, 1]
    simp [Fits]

/-- The object is as long as a chunk: one more is requested, behind its end, and refused. -/
theorem appPtpDownloadFile_fullObject :
    ¬ ∀ h rc s', (∀ e ∈ h, KeepsInside smallObject.compressedSize 3 e) →
      Exec (appPtpDownloadFile 4 smallObject 1 3 0) fujiPtpNew h rc s' →
        Delivers smallObject.compressedSize h rc := by
  intro hdelivers
  have hrun : Exec (appPtpDownloadFile 4 smallObject 1 3 0) fujiPtpNew _ .ioErr _ :=
    exec_bind (exec_ask ()) <| exec_bind (exec_transact ⟨.ok, [1, 2, 3], ()⟩) <|
      exec_ite_neg (by simp) <| exec_bind exec_get <| exec_ite_neg (by simp) <|
      exec_bind (exec_ask ()) <| exec_bind (exec_ask ()) <| exec_ite_neg (by simp) <|
      exec_bind (exec_ask ()) <| exec_bind (exec_transact ⟨.ioErr, [], ()⟩) <|
      exec_ite_pos (by simp) <| exec_bind (exec_ask ()) (exec_pure _)
  have hdelivered := hdelivers _ .ioErr _ (by
    simp only [List.cons_append, List.nil_append, List.forall_mem_cons, List.not_mem_nil,
      IsEmpty.forall_iff, implies_true, KeepsInside]
    decide) hrun
  have hrequested : (3 : UInt32) ∈ [0, 3] := by decide
  exact absurd (hdelivered.inside 3 hrequested) (by decide)

end Loop

end Fuji
