/-
Sending files to the camera (`fujiusb_restore_backup` and `fuji_send_raf` in `fuji_usb.c`).

Both announce an object with the size that `ftell` gives, and send as many bytes of a buffer that
`fread` fills.  Neither gives up when `fread` is short: the one logs it, the other does not look.

`uploads_iff`: what is sent is the file, with the size that has been announced, just if the size is
that of the file, and what `fread` has left of the buffer happens to hold the rest of it.
-/
import LibFuji.ByteCodec
import LibFuji.ProcessRaf
import LibFuji.Transport

namespace Fuji

open Interaction ByteCodec

/-! ### The code -/

/-- `PTP_OC_SendObjectInfo`. -/
def ptpOcSendObjectInfo : ℕ := 0x100c

/-- The operations of an upload. -/
inductive UploadOp
  | base (op : Op)
  /-- `ptp_send_data` -/
  | sendData (code : ℕ) (params : List UInt32) (data : List UInt8)

@[reducible] def UploadOp.Ret : UploadOp → Type
  | base op => op.Ret
  | sendData _ _ _ => Rc × List UInt8

/-- Programs that upload. -/
abbrev UploadM : Type → Type := StateT PtpRuntime (Prog UploadOp UploadOp.Ret)

/-- Ask the environment. -/
def askUpload (op : Op) : UploadM op.Ret := call (UploadOp.base op)

/-- `ptp_send_data`. -/
def ptpSendData (code : ℕ) (params : List UInt32) (data : List UInt8) : UploadM Rc := do
  let r : Rc × List UInt8 ← call (UploadOp.sendData code params data)
  modify fun s => s.answered r.2
  return r.1

/-- `ptp_send_object`. -/
def ptpSendObject (data : List UInt8) (length : Int) : UploadM Rc := do
  let r : Resp (.sendObject data length) ← askUpload (.ptp (.sendObject data length))
  modify fun s => s.answered r.payload
  return r.rc

/-- The object info of `fujiusb_restore_backup`, in a buffer of 1088 bytes. -/
def backupInfo (fileSize : UInt32) : List UInt8 :=
  leBytes 4 0 ++ leBytes 2 0x5000 ++ leBytes 2 0 ++ leBytes 4 fileSize.toNat ++ .replicate 1076 0

/-- `fujiusb_restore_backup`. -/
def fujiusbRestoreBackup : UploadM Rc := do
  let fileSize : Int ← askUpload .fileSize
  if fileSize > 100000 then return .err (-1)
  else
    let rc ← ptpSendData ptpOcSendObjectInfo [0, 0] (backupInfo (UInt32.ofInt fileSize))
    if rc ≠ .ok then return rc
    else
      let block : Option (List UInt8) ← askUpload (.malloc (fileSize + 1))
      match block with
      | none => hang -- abort()
      | some buffer =>
        -- a read that is short is logged
        let bytes : List UInt8 ← askUpload (.fread fileSize)
        ptpSendObject (bytes ++ buffer.drop bytes.length) (toCInt fileSize)

/-! ### What is uploaded -/

/-- The steps of an upload. -/
inductive UploadStep
  /-- what `ftell` gives -/
  | size (n : Int)
  /-- the memory that `malloc` gives -/
  | block (buffer : List UInt8)
  /-- what `fread` gives -/
  | read (bytes : List UInt8)
  /-- an object info, with the answer of the camera -/
  | announced (size : UInt32) (rc : Rc)
  | sent (data : List UInt8) (length : Int)
  deriving DecidableEq

/-- The step of an upload that an operation of the runtime is. -/
def stepOf : Event Op Op.Ret → Option UploadStep
  | ⟨.fileSize, n⟩ => some (.size n)
  | ⟨.malloc _, block⟩ =>
    let block : Option (List UInt8) := block
    block.map .block
  | ⟨.fread _, bytes⟩ => some (.read bytes)
  | ⟨.ptp (.sendObjectInfo storageId handle oi), r⟩ =>
    let r : Resp (.sendObjectInfo storageId handle oi) := r
    some (.announced oi.compressedSize r.rc)
  | ⟨.ptp (.sendObject data length), _⟩ => some (.sent data length)
  | _ => none

/-- The size stands behind the storage, the format and the protection of an object. -/
def sizeInInfo (data : List UInt8) : UInt32 := UInt32.ofNat (leNat ((data.drop 8).take 4))

/-- The step that an operation of an upload is. -/
def uploadStepOf : Event UploadOp UploadOp.Ret → Option UploadStep
  | ⟨.base op, r⟩ => stepOf ⟨op, r⟩
  | ⟨.sendData code _ data, r⟩ =>
    let r : Rc × List UInt8 := r
    if code = ptpOcSendObjectInfo then some (.announced (sizeInInfo data) r.1)
    else some (.sent data data.length)

/-- The size that was announced last. -/
def announcedSize (steps : List UploadStep) : Option UInt32 :=
  (steps.filterMap fun
    | .announced size _ => some size
    | _ => none).getLast?

/-- What file operations may answer for a file. -/
structure FileAnswers (content : List UInt8) (steps : List UploadStep) : Prop where
  size : ∀ n, .size n ∈ steps → -1 ≤ n
  read : ∀ bytes, .read bytes ∈ steps → bytes <+: content

/-- An object is sent only as the complete content of a file, with the size that was announced;
otherwise the result is an error. -/
structure Uploads (content : List UInt8) (steps : List UploadStep) (rc : Rc) : Prop where
  complete : ∀ before data (length : Int) after, steps = before ++ .sent data length :: after →
    data.take length.toNat = content ∧ length = content.length ∧
      (announcedSize before).map UInt32.toNat = some content.length
  refused : (∀ data length, .sent data length ∉ steps) → rc ≠ .ok

/-- If the camera accepts the object, the size is that of the file, as an `int`, and the file is
what `fread` gives, continued by what the memory has held before. -/
def UploadFits (content : List UInt8) (steps : List UploadStep) : Prop :=
  ∀ size n buffer bytes, .announced size .ok ∈ steps → .size n ∈ steps → .block buffer ∈ steps →
    .read bytes ∈ steps →
      toCInt n = content.length ∧ content <+: bytes ++ buffer.drop bytes.length

/-! ### What the functions do -/

/-- An announced size is read as it was written. -/
theorem sizeInInfo_backupInfo (fileSize : UInt32) : sizeInInfo (backupInfo fileSize) = fileSize := by
  have hfield : ((backupInfo fileSize).drop 8).take 4 = leBytes 4 fileSize.toNat := by
    rw [backupInfo, List.append_assoc, List.drop_left' (by simp), List.take_left' (by simp)]
  have hlt : fileSize.toNat < 256 ^ 4 := fileSize.toNat_lt
  rw [sizeInInfo, hfield, leNat_leBytes, Nat.mod_eq_of_lt hlt, UInt32.ofNat_toNat]

section Steps

variable {rc : Rc}

theorem exec_ptpSendData_bind {α : Type} {code : ℕ} {params : List UInt32} {data : List UInt8}
    {f : Rc → UploadM α} {s s' : PtpRuntime} {h : List (Event UploadOp UploadOp.Ret)} {a : α} :
    Exec (ptpSendData code params data >>= f) s h a s' ↔
      ∃ (r : Rc × List UInt8) (h' : List (Event UploadOp UploadOp.Ret)),
        h = ⟨.sendData code params data, r⟩ :: h' ∧ Exec (f r.1) (s.answered r.2) h' a s' := by
  constructor
  · rintro (_ | ⟨r, hr⟩)
    exact ⟨r, _, rfl, hr⟩
  · rintro ⟨r, h', rfl, hr⟩
    exact exec_call_bind.mpr ⟨r, h', rfl, hr⟩

/-- What `fujiusb_restore_backup` can do. -/
theorem fujiusbRestoreBackup_steps {s s' : PtpRuntime} {h : List (Event UploadOp UploadOp.Ret)}
    (hrun : Exec fujiusbRestoreBackup s h rc s') :
    ∃ n, h.filterMap uploadStepOf = [.size n] ∧ rc ≠ .ok ∨
      h.filterMap uploadStepOf = [.size n, .announced (UInt32.ofInt n) rc] ∧ rc ≠ .ok ∨
      ∃ buffer bytes, h.filterMap uploadStepOf = [.size n, .announced (UInt32.ofInt n) .ok,
        .block buffer, .read bytes, .sent (bytes ++ buffer.drop bytes.length) (toCInt n)] := by
  obtain ⟨n, h₁, rfl, hrun₁⟩ := exec_call_bind.mp hrun
  refine ⟨n, ?_⟩
  by_cases hbig : (n : Int) > 100000
  · rw [if_pos hbig] at hrun₁
    obtain ⟨rfl, rfl, -⟩ := hrun₁.eq_of_ret rfl
    exact .inl ⟨rfl, by simp⟩
  rw [if_neg hbig] at hrun₁
  obtain ⟨r, h₂, rfl, hrun₂⟩ := exec_ptpSendData_bind.mp hrun₁
  have hsize : uploadStepOf ⟨.base .fileSize, n⟩ = some (.size n) := rfl
  have hannounced : uploadStepOf ⟨.sendData ptpOcSendObjectInfo [0, 0] (backupInfo (UInt32.ofInt n)), r⟩
      = some (.announced (UInt32.ofInt n) r.1) := by
    rw [uploadStepOf, if_pos rfl, sizeInInfo_backupInfo]
  right
  by_cases hcode : r.1 ≠ .ok
  · rw [if_pos hcode] at hrun₂
    obtain ⟨rfl, rfl, -⟩ := hrun₂.eq_of_ret rfl
    refine .inl ⟨?_, hcode⟩
    rw [List.filterMap_cons_some hsize, List.filterMap_cons_some hannounced]
    rfl
  rw [if_neg hcode] at hrun₂
  rw [not_not.mp hcode] at hannounced
  obtain ⟨block, h₃, rfl, hrun₃⟩ := exec_call_bind.mp hrun₂
  cases block with
  | none => cases hrun₃
  | some buffer =>
    obtain ⟨bytes, h₄, rfl, hrun₄⟩ := exec_call_bind.mp hrun₃
    obtain ⟨r', h₅, rfl, hret⟩ := exec_call_bind.mp hrun₄
    obtain ⟨rfl, -, -⟩ := hret.eq_of_ret rfl
    refine .inr ⟨buffer, bytes, ?_⟩
    rw [List.filterMap_cons_some hsize, List.filterMap_cons_some hannounced]
    rfl

/-- What `fuji_send_raf` can do. -/
theorem fujiSendRaf_steps {path : String} {s s' : PtpRuntime} {h : History}
    (hrun : Exec (fujiSendRaf path) s h rc s') :
    h.filterMap stepOf = [] ∧ rc ≠ .ok ∨ ∃ n buffer bytes,
      h.filterMap stepOf = [.size n, .block buffer, .read bytes, .announced (UInt32.ofInt n) rc] ∧
        rc ≠ .ok ∨
      h.filterMap stepOf = [.size n, .block buffer, .read bytes, .announced (UInt32.ofInt n) .ok,
        .sent ((bytes ++ buffer.drop bytes.length).set n.toNat 0) (toCInt n)] := by
  obtain ⟨opened, h₁, rfl, hrun₁⟩ := exec_ask_bind.mp hrun
  by_cases hopened : (opened : Bool) = false
  · rw [if_pos hopened] at hrun₁
    obtain ⟨rfl, rfl, -⟩ := hrun₁.eq_of_ret rfl
    exact .inl ⟨rfl, by simp⟩
  rw [if_neg hopened] at hrun₁
  obtain ⟨n, h₂, rfl, hrun₂⟩ := exec_ask_bind.mp hrun₁
  obtain ⟨block, h₃, rfl, hrun₃⟩ := exec_ask_bind.mp hrun₂
  cases block with
  | none => cases hrun₃
  | some buffer =>
    obtain ⟨bytes, h₄, rfl, hrun₄⟩ := exec_ask_bind.mp hrun₃
    obtain ⟨_, h₅, rfl, hrun₅⟩ := exec_ask_bind.mp hrun₄
    obtain ⟨r, h₆, rfl, hrun₆⟩ := exec_transact_bind.mp hrun₅
    refine .inr ⟨n, buffer, bytes, ?_⟩
    by_cases hcode : r.rc ≠ .ok
    · rw [if_pos hcode] at hrun₆
      obtain ⟨rfl, rfl, -⟩ := hrun₆.eq_of_ret rfl
      exact .inl ⟨rfl, hcode⟩
    · rw [if_neg hcode] at hrun₆
      obtain ⟨r', h₇, rfl, hret⟩ := exec_transact_bind.mp hrun₆
      obtain ⟨rfl, -, -⟩ := hret.eq_of_ret rfl
      rw [← not_not.mp hcode]
      exact .inr rfl

/-! ### What is sent -/

variable {content : List UInt8} {before : List UploadStep} {steps : List UploadStep}

/-- Without an accepted announcement an error is right. -/
theorem uploads_iff_of_not_sent (hsent : ∀ data length, .sent data length ∉ steps)
    (haccepted : ∀ size, .announced size .ok ∉ steps) (hrc : rc ≠ .ok) :
    Uploads content steps rc ↔ UploadFits content steps := by
  refine iff_of_true ⟨?_, fun _ => hrc⟩ fun size _ _ _ hmem => absurd hmem (haccepted size)
  rintro before data length after rfl
  exact absurd (by simp) (hsent data length)

/-- What is sent last decides. -/
theorem uploads_iff_of_sent {data : List UInt8} {length : Int}
    (hsteps : steps = before ++ [.sent data length])
    (hbefore : ∀ data length, .sent data length ∉ before) :
    Uploads content steps rc ↔
      data.take length.toNat = content ∧ length = content.length ∧
        (announcedSize before).map UInt32.toNat = some content.length := by
  subst hsteps
  constructor
  · exact fun huploads => huploads.complete before data length [] rfl
  · refine fun hcomplete => ⟨?_, fun hnone => absurd (by simp) (hnone data length)⟩
    intro before' data' length' after heq
    rcases List.append_eq_append_iff.mp heq with ⟨t, rfl, hrest⟩ | ⟨t, rfl, hrest⟩
    · cases t with
      | nil =>
        obtain ⟨hlast, -⟩ := List.cons.inj hrest
        cases hlast
        rwa [List.append_nil]
      | cons step t =>
        obtain ⟨-, hnil⟩ := List.cons.inj hrest
        exact absurd hnil (by simp)
    · cases t with
      | nil =>
        obtain ⟨hlast, -⟩ := List.cons.inj hrest
        cases hlast
        rwa [List.append_nil] at hcomplete
      | cons step t =>
        obtain ⟨rfl, -⟩ := List.cons.inj hrest
        exact absurd (by simp) (hbefore data' length')

/-- A length that is right as an `int` is announced right. -/
theorem ofInt_toNat_of_toCInt {n : Int} {k : ℕ} (hn : toCInt n = k) : (UInt32.ofInt n).toNat = k := by
  rw [toCInt] at hn
  have hmod : n.bmod (2 ^ 32) % (2 ^ 32 : ℕ) = n % (2 ^ 32 : ℕ) := Int.bmod_emod
  have hlt := @Int.bmod_lt n (2 ^ 32) (by norm_num)
  rw [UInt32.ofInt, UInt32.toNat_ofNat']
  omega

/-- The size of the file decides, and that the buffer begins with it. -/
theorem sent_iff {data : List UInt8} {n : Int} :
    (data.take (toCInt n).toNat = content ∧ toCInt n = content.length ∧
      some (UInt32.ofInt n).toNat = some content.length) ↔
      toCInt n = content.length ∧ content <+: data := by
  constructor
  · rintro ⟨htake, hlength, -⟩
    refine ⟨hlength, List.prefix_iff_eq_take.mpr ?_⟩
    rw [hlength, Int.toNat_natCast] at htake
    exact htake.symm
  · rintro ⟨hlength, hprefix⟩
    refine ⟨?_, hlength, congrArg some (ofInt_toNat_of_toCInt hlength)⟩
    rw [hlength, Int.toNat_natCast]
    exact (List.prefix_iff_eq_take.mp hprefix).symm

theorem le_toNat_of_toCInt {n : Int} {k : ℕ} (hn : toCInt n = k) (hsize : -1 ≤ n) : k ≤ n.toNat := by
  rw [toCInt] at hn
  have hmod : n.bmod (2 ^ 32) % (2 ^ 32 : ℕ) = n % (2 ^ 32 : ℕ) := Int.bmod_emod
  have hlt := @Int.bmod_lt n (2 ^ 32) (by norm_num)
  omega

theorem uploadFits_iff (size : UInt32) (n : Int) (buffer bytes : List UInt8)
    (hannounced : .announced size .ok ∈ steps) (hsize : ∀ m, .size m ∈ steps ↔ m = n)
    (hblock : ∀ b, .block b ∈ steps ↔ b = buffer) (hread : ∀ b, .read b ∈ steps ↔ b = bytes) :
    UploadFits content steps ↔
      toCInt n = content.length ∧ content <+: bytes ++ buffer.drop bytes.length := by
  constructor
  · exact fun hfits => hfits size n buffer bytes hannounced ((hsize n).mpr rfl)
      ((hblock buffer).mpr rfl) ((hread bytes).mpr rfl)
  · intro hboth _ m b b' _ hm hb hb'
    rw [(hsize m).mp hm, (hblock b).mp hb, (hread b').mp hb']
    exact hboth

/-- The terminator of `fuji_send_raf` stands behind a file of the right size. -/
theorem prefix_set_iff {data : List UInt8} {i : ℕ} (hi : content.length ≤ i) :
    content <+: data.set i 0 ↔ content <+: data := by
  rw [List.prefix_iff_eq_take, List.prefix_iff_eq_take, List.take_set_of_le hi]

theorem fujiusbRestoreBackup_uploads_iff {s s' : PtpRuntime}
    {h : List (Event UploadOp UploadOp.Ret)} (hrun : Exec fujiusbRestoreBackup s h rc s') :
    Uploads content (h.filterMap uploadStepOf) rc ↔
      UploadFits content (h.filterMap uploadStepOf) := by
  obtain ⟨n, ⟨hsteps, hrc⟩ | ⟨hsteps, hrc⟩ | ⟨buffer, bytes, hsteps⟩⟩ := fujiusbRestoreBackup_steps hrun
  · rw [hsteps]
    exact uploads_iff_of_not_sent (by simp) (by simp) hrc
  · rw [hsteps]
    exact uploads_iff_of_not_sent (by simp) (by simp [hrc.symm]) hrc
  · have hlast : h.filterMap uploadStepOf = [.size n, .announced (UInt32.ofInt n) .ok,
        .block buffer, .read bytes] ++
          [.sent (bytes ++ buffer.drop bytes.length) (toCInt n)] := hsteps
    rw [uploadFits_iff (UInt32.ofInt n) n buffer bytes (by simp [hsteps]) (by simp [hsteps])
      (by simp [hsteps]) (by simp [hsteps]), uploads_iff_of_sent hlast (by simp)]
    exact sent_iff

theorem fujiSendRaf_uploads_iff {path : String} {s s' : PtpRuntime} {h : History}
    (hrun : Exec (fujiSendRaf path) s h rc s') (hfile : FileAnswers content (h.filterMap stepOf)) :
    Uploads content (h.filterMap stepOf) rc ↔ UploadFits content (h.filterMap stepOf) := by
  obtain ⟨hsteps, hrc⟩ | ⟨n, buffer, bytes, ⟨hsteps, hrc⟩ | hsteps⟩ := fujiSendRaf_steps hrun
  · rw [hsteps]
    exact uploads_iff_of_not_sent (by simp) (by simp) hrc
  · rw [hsteps]
    exact uploads_iff_of_not_sent (by simp) (by simp [hrc.symm]) hrc
  · have hsize : -1 ≤ n := hfile.size n (by simp [hsteps])
    have hlast : h.filterMap stepOf = [.size n, .block buffer, .read bytes,
        .announced (UInt32.ofInt n) .ok] ++
          [.sent ((bytes ++ buffer.drop bytes.length).set n.toNat 0) (toCInt n)] := hsteps
    rw [uploadFits_iff (UInt32.ofInt n) n buffer bytes (by simp [hsteps]) (by simp [hsteps])
      (by simp [hsteps]) (by simp [hsteps]), uploads_iff_of_sent hlast (by simp)]
    refine sent_iff.trans ?_
    exact and_congr_right fun hlength => prefix_set_iff (le_toNat_of_toCInt hlength hsize)

end Steps

/-- **What is sent is the file, as it was announced**, just if the size is that of the file and what
`fread` has left of the buffer holds the rest of it. -/
theorem uploads_iff (content : List UInt8) (s s' : PtpRuntime) (rc : Rc) :
    (∀ h, Exec fujiusbRestoreBackup s h rc s' → FileAnswers content (h.filterMap uploadStepOf) →
      (Uploads content (h.filterMap uploadStepOf) rc ↔
        UploadFits content (h.filterMap uploadStepOf))) ∧
    ∀ path h, Exec (fujiSendRaf path) s h rc s' → FileAnswers content (h.filterMap stepOf) →
      (Uploads content (h.filterMap stepOf) rc ↔ UploadFits content (h.filterMap stepOf)) :=
  ⟨fun _ hrun _ => fujiusbRestoreBackup_uploads_iff hrun,
    fun _ _ hrun hfile => fujiSendRaf_uploads_iff hrun hfile⟩

/-- A disk with a file of three bytes of which `fread` gives some, and a camera that accepts
everything. -/
def disk (bytes : List UInt8) : (op : Op) → op.Ret
  | .fopen _ _ => true
  | .fileSize => (3 : Int)
  | .malloc _ => some [0, 0, 0, 0]
  | .fread _ => bytes
  | op => accessPoint op

/-- The same for an upload. -/
def uploadDisk (bytes : List UInt8) : (op : UploadOp) → op.Ret
  | .base op => disk bytes op
  | .sendData _ _ _ => (.ok, [])

/-- A file that is read completely is sent by both functions. -/
theorem uploads_complete :
    (∃ h s', Exec fujiusbRestoreBackup fujiPtpNew h .ok s' ∧
      Uploads [1, 2, 3] (h.filterMap uploadStepOf) .ok) ∧
    ∃ h s', Exec (fujiSendRaf "a.raf") fujiPtpNew h .ok s' ∧
      Uploads [1, 2, 3] (h.filterMap stepOf) .ok := by
  have hbackup : ((fujiusbRestoreBackup fujiPtpNew).trace (uploadDisk [1, 2, 3])).map
      (fun r => (r.1.filterMap uploadStepOf, r.2.1)) = some ([.size 3, .announced 3 .ok,
        .block [0, 0, 0, 0], .read [1, 2, 3], .sent [1, 2, 3, 0] 3], .ok) := by
    decide +kernel
  have hraf : ((fujiSendRaf "a.raf" fujiPtpNew).trace (disk [1, 2, 3])).map
      (fun r => (r.1.filterMap stepOf, r.2.1)) = some ([.size 3, .block [0, 0, 0, 0],
        .read [1, 2, 3], .announced 3 .ok, .sent [1, 2, 3, 0] 3], .ok) := by
    decide +kernel
  constructor
  · obtain ⟨⟨h, rc, s'⟩, hsome, heq⟩ := Option.map_eq_some_iff.mp hbackup
    obtain ⟨hsteps, rfl⟩ := Prod.mk.inj heq
    have hrun := (Prog.runs_of_trace hsome).1
    refine ⟨h, s', hrun, ((uploads_iff [1, 2, 3] fujiPtpNew s' .ok).1 h hrun ?_).mpr ?_⟩
    · rw [hsteps]
      exact ⟨by simp, by simp⟩
    · rw [hsteps]
      exact (uploadFits_iff 3 3 [0, 0, 0, 0] [1, 2, 3] (by simp) (by simp) (by simp)
        (by simp)).mpr (by decide)
  · obtain ⟨⟨h, rc, s'⟩, hsome, heq⟩ := Option.map_eq_some_iff.mp hraf
    obtain ⟨hsteps, rfl⟩ := Prod.mk.inj heq
    have hrun := (Prog.runs_of_trace hsome).1
    refine ⟨h, s', hrun, ((uploads_iff [1, 2, 3] fujiPtpNew s' .ok).2 "a.raf" h hrun ?_).mpr ?_⟩
    · rw [hsteps]
      exact ⟨by simp, by simp⟩
    · rw [hsteps]
      exact (uploadFits_iff 3 3 [0, 0, 0, 0] [1, 2, 3] (by simp) (by simp) (by simp)
        (by simp)).mpr (by decide)

/-- A backup of which one byte is read is sent with two bytes of the memory behind it. -/
theorem uploads_short : ¬ ∀ content s h rc s', Exec fujiusbRestoreBackup s h rc s' →
    FileAnswers content (h.filterMap uploadStepOf) →
      Uploads content (h.filterMap uploadStepOf) rc := by
  intro hall
  have htrace : ((fujiusbRestoreBackup fujiPtpNew).trace (uploadDisk [1])).map
      (fun r => r.1.filterMap uploadStepOf) = some ([.size 3, .announced 3 .ok,
        .block [0, 0, 0, 0], .read [1]] ++ .sent [1, 0, 0, 0] 3 :: []) := by
    decide +kernel
  obtain ⟨⟨h, rc, s'⟩, hsome, hsteps⟩ := Option.map_eq_some_iff.mp htrace
  have huploads := hall [1, 2, 3] fujiPtpNew h rc s' (Prog.runs_of_trace hsome).1
  rw [show h.filterMap uploadStepOf = _ from hsteps] at huploads
  have hcomplete := (huploads ⟨by simp, by simp⟩).complete _ _ _ _ rfl
  exact absurd hcomplete.1 (by decide)

end Fuji
