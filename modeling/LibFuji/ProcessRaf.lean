/-
Developing a RAF file in the camera (`fuji_process_raf` in `fuji_usb.c`).

The four functions of the profile library are a parameter (`FpLib`): what is said here
holds for any outcome of theirs.  `fpLib` is the library of this repository.

`fujiProcessRaf_keepsPromise_iff` says when the function keeps its promise about the profile it
sends.  It looks neither at the code of the decoder, nor, its length being unsigned, at
that of the encoder.
-/
import LibFuji.Merge
import LibFuji.Ptp

namespace Fuji

open Interaction

/-- The profile library as `fuji_process_raf` uses it. -/
structure FpLib where
  parseD185 : List UInt8 → FujiProfile → Int × FujiProfile
  parseFp1 : FujiProfile → Int × FujiProfile
  applyProfile : FujiProfile → FujiProfile → Int × FujiProfile
  createD185 : FujiProfile → ℕ → Created

/-- The library of this repository, for the file `xml` and given leftovers of the encoder.
It never reads outside a blob (`fpParseD185_total`), so its default is not used for one;
a file that is not survived counts as refused. -/
def fpLib (xml : Option Document) (u : Uninit) : FpLib where
  parseD185 bin fp := (fpParseD185 bin fp).getD (-1, fp)
  parseFp1 fp := (fpParseFp1 xml fp).getD (-1, fp)
  applyProfile := fpApplyProfile
  createD185 fp len := fpCreateD185 fp u len

/-! ### The code -/

/-- `fuji_send_raf`. -/
def fujiSendRaf (path : String) : PtpM Rc := do
  let opened : Bool ← ask (.fopen path "rb")
  if opened = false then return .runtimeErr
  else
    let fileSize : Int ← ask .fileSize
    let block : Option (List UInt8) ← ask (.malloc (fileSize + 1))
    match block with
    | none => hang -- abort()
    | some buffer =>
      let bytes : List UInt8 ← ask (.fread fileSize)
      -- what fread does not fill stays as malloc left it
      let buffer := (bytes ++ buffer.drop bytes.length).set fileSize.toNat 0
      let _ ← ask .fclose
      let oi := { ObjectInfo.zero with
        objFormat := 0xf802, compressedSize := UInt32.ofInt fileSize, filename := "FUP_FILE.dat" }
      let r ← transact (.sendObjectInfo 0 0 oi)
      if r.rc ≠ .ok then return r.rc
      else
        let r ← transact (.sendObject buffer (toCInt fileSize))
        return r.rc

/-- The copy of the payload that `fuji_process_raf` makes: its length is an `unsigned int`. -/
def copyPayload (payload : List UInt8) : List UInt8 :=
  payload.take (UInt32.ofNat payload.length).toNat

/-- The loop of `fuji_process_raf` that waits for the developed image, `n` times more. -/
def waitForImage (outputPath : String) : ℕ → PtpM Rc
  | 0 => return .ok
  | n + 1 => do
    let r ← transact (.getObjectHandles (-1) 0 0)
    if r.rc ≠ .ok then return r.rc
    else
      let list : List UInt32 := r.out
      match list with
      | [] => do
        let _ ← ask (.usleep 1000000)
        waitForImage outputPath n
      | handle :: _ => do
        let r ← transact (.getObject (toCInt handle.toNat))
        if r.rc ≠ .ok then return r.rc
        else
          let opened : Bool ← ask (.fopen outputPath "wb")
          if opened = false then return .runtimeErr
          else
            let s ← get
            let _ ← ask (.fwrite s.payload)
            let _ ← ask .fclose
            let r ← transact (.deleteObject (toCInt handle.toNat))
            if r.rc ≠ .ok then return r.rc else return .ok

/-- `fuji_process_raf` once the profile has been created. -/
def sendProfile (created : Created) (outputPath : String) : PtpM Rc := do
  -- unsigned int profile_len
  let profileLen := UInt32.ofInt created.rc
  if profileLen < 0 then return .err (-1)
  else
    let r ← transact (.setPropValueData dpcRawConvProfile created.written profileLen)
    if r.rc ≠ .ok then return r.rc
    else
      let r ← transact (.setPropValue16 dpcStartRawConversion 0)
      if r.rc ≠ .ok then return r.rc else waitForImage outputPath 20

/-- `fuji_process_raf` once the profile of the camera has been downloaded; `fp` and
`userFp` are its uninitialised locals. -/
def convertProfile (lib : FpLib) (fp userFp : FujiProfile) (profile : List UInt8)
    (outputPath : String) : PtpM Rc :=
  let fp := (lib.parseD185 profile fp).2
  let user := lib.parseFp1 userFp
  if user.1 = 0 then
    let merged := lib.applyProfile user.2 fp
    if merged.1 ≠ 0 then return .runtimeErr
    else sendProfile (lib.createD185 merged.2 1024) outputPath
  else return .runtimeErr

/-- `fuji_process_raf`. -/
def fujiProcessRaf (lib : FpLib) (fp userFp : FujiProfile) (inputRafPath outputPath : String) :
    PtpM Rc := do
  let fuji ← get
  if fuji.transport ≠ .rawConv then return .runtimeErr
  else
    let rc ← fujiSendRaf inputRafPath
    if rc ≠ .ok then return rc
    else
      ptpMutexLock
      let r ← transact (.getPropValue dpcRawConvProfile)
      if r.rc ≠ .ok then
        ptpMutexUnlock
        return r.rc
      else
        let s ← get
        let profile := copyPayload s.payload
        ptpMutexUnlock
        convertProfile lib fp userFp profile outputPath

/-! ### What it promises -/

/-- The blob of the camera that a download of the profile brought. -/
def blobOfEvent : Event Op Op.Ret → Option (List UInt8)
  | ⟨.ptp (.getPropValue code), r⟩ =>
    let r : Resp (.getPropValue code) := r
    if code = dpcRawConvProfile ∧ r.rc = .ok then some (copyPayload r.payload) else none
  | _ => none

/-- The blob of the camera, once it has been downloaded. -/
def blobOf (h : History) : Option (List UInt8) := h.findSome? blobOfEvent

/-- Does an operation send a profile, or start the conversion? -/
def Op.IsSend : Op → Prop
  | .ptp (.setPropValueData code _ _) => code = dpcRawConvProfile
  | .ptp (.setPropValue16 code _) => code = dpcStartRawConversion
  | _ => False

section Promise

variable (lib : FpLib) (fp userFp : FujiProfile)

/-- What `fp_create_d185` makes of a blob. -/
def createdOf (blob : List UInt8) : Created :=
  lib.createD185 (lib.applyProfile (lib.parseFp1 userFp).2 (lib.parseD185 blob fp).2).2 1024

/-- All four profile steps succeed on a blob. -/
def StepsOk (blob : List UInt8) : Prop :=
  (lib.parseD185 blob fp).1 = 0 ∧ (lib.parseFp1 userFp).1 = 0 ∧
    (lib.applyProfile (lib.parseFp1 userFp).2 (lib.parseD185 blob fp).2).1 = 0 ∧
    0 ≤ (createdOf lib fp userFp blob).rc

/-- The promise: a profile is sent only after four successful steps and then as it was
created; otherwise the code is not 0 and nothing is sent. -/
def KeepsPromise (h : History) (rc : Rc) : Prop :=
  (∀ data len, .ptp (.setPropValueData dpcRawConvProfile data len) ∈ h.map Sigma.fst →
    ∃ blob, blobOf h = some blob ∧ StepsOk lib fp userFp blob ∧
      data = (createdOf lib fp userFp blob).written ∧
      len = UInt32.ofInt (createdOf lib fp userFp blob).rc) ∧
  ((¬ ∃ blob, blobOf h = some blob ∧ StepsOk lib fp userFp blob) →
    rc ≠ .ok ∧ ∀ e ∈ h, ¬ e.1.IsSend)

end Promise

/-! ### Operations that have no part in it -/

/-- Operations that neither bring a profile nor send one. -/
def Op.NoProfile : Op → Prop
  | .ptp (.getPropValue _) => False
  | .ptp (.setPropValueData _ _ _) => False
  | _ => True

/-- Operations that neither read nor write a property. -/
def Op.Quiet : Op → Prop
  | .ptp (.setPropValue16 _ _) => False
  | op => op.NoProfile

theorem Op.Quiet.noProfile {op : Op} (h : op.Quiet) : op.NoProfile := by
  rcases op with c | _ <;> try exact trivial
  cases c <;> first | exact trivial | exact h.elim

theorem Op.Quiet.not_isSend {op : Op} (h : op.Quiet) : ¬ op.IsSend := by
  rcases op with c | _ <;> try exact id
  cases c <;> first | exact id | exact h.elim

theorem blobOfEvent_of_noProfile {e : Event Op Op.Ret} (h : e.1.NoProfile) :
    blobOfEvent e = none := by
  obtain ⟨op, r⟩ := e
  rcases op with c | _ <;> try rfl
  cases c <;> first | rfl | exact h.elim

theorem blobOf_append {h t : History} (ht : ∀ e ∈ t, e.1.NoProfile) :
    blobOf (h ++ t) = blobOf h := by
  have hnone : t.findSome? blobOfEvent = none :=
    List.findSome?_eq_none_iff.mpr fun e he => blobOfEvent_of_noProfile (ht e he)
  rw [blobOf, List.findSome?_append, hnone, Option.or_none]
  rfl

theorem blobOf_append_of_some {h : History} {blob : List UInt8} (hblob : blobOf h = some blob)
    (t : History) : blobOf (h ++ t) = some blob := by
  rw [blobOf, List.findSome?_append, show h.findSome? blobOfEvent = some blob from hblob]
  rfl

/-- The history after the download of the profile. -/
theorem blobOf_download {t : History} (ht : blobOf t = none)
    (a : Op.mutexLock.Ret) (r : Resp (.getPropValue dpcRawConvProfile))
    (b : Op.mutexUnlock.Ret) :
    blobOf (t ++ [⟨.mutexLock, a⟩] ++ [⟨.ptp (.getPropValue dpcRawConvProfile), r⟩]
      ++ [⟨.mutexUnlock, b⟩]) = if r.rc = .ok then some (copyPayload r.payload) else none := by
  have hlock : blobOf (t ++ [⟨.mutexLock, a⟩]) = none := by
    rw [blobOf_append (by simp [Op.NoProfile]), ht]
  rw [blobOf] at hlock
  rw [blobOf_append (by simp [Op.NoProfile]), blobOf, List.findSome?_append, hlock,
    Option.none_or]
  by_cases hrc : r.rc = .ok <;> simp [blobOfEvent, hrc]

theorem not_isSend_download {t : History} (ht : ∀ e ∈ t, ¬ e.1.IsSend)
    (a : Op.mutexLock.Ret) (r : Resp (.getPropValue dpcRawConvProfile))
    (b : Op.mutexUnlock.Ret) :
    ∀ e ∈ t ++ [⟨.mutexLock, a⟩] ++ [⟨.ptp (.getPropValue dpcRawConvProfile), r⟩]
      ++ [⟨.mutexUnlock, b⟩], ¬ e.1.IsSend := by
  intro e he
  simp only [List.mem_append, List.mem_singleton] at he
  rcases he with ((he | rfl) | rfl) | rfl
  · exact ht e he
  all_goals exact id

theorem fujiSendRaf_respects (path : String) :
    Respects Op.Quiet AnyState (fujiSendRaf path) := by
  refine respects_bind (respects_call trivial) fun opened => ?_
  refine respects_ite (respects_pure _) ?_
  refine respects_bind (respects_call trivial) fun fileSize => ?_
  refine respects_bind (respects_call trivial) fun block => ?_
  cases block with
  | none => exact respects_hang
  | some buffer =>
    refine respects_bind (respects_call trivial) fun bytes => ?_
    refine respects_bind (respects_call trivial) fun _ => ?_
    refine respects_bind (transact_respects (fun _ _ => trivial) trivial) fun r => ?_
    refine respects_ite (respects_pure _) ?_
    exact respects_bind (transact_respects (fun _ _ => trivial) trivial) fun r => respects_pure _

theorem waitForImage_respects (outputPath : String) (n : ℕ) :
    Respects Op.Quiet AnyState (waitForImage outputPath n) := by
  induction n with
  | zero => exact respects_pure _
  | succ n ih =>
    refine respects_bind (transact_respects (fun _ _ => trivial) trivial) fun r => ?_
    refine respects_ite (respects_pure _) ?_
    obtain ⟨rc, payload, list⟩ := r
    change List UInt32 at list
    cases list with
    | nil => exact respects_bind (respects_call trivial) fun _ => ih
    | cons handle rest =>
      refine respects_bind (transact_respects (fun _ _ => trivial) trivial) fun r => ?_
      refine respects_ite (respects_pure _) ?_
      refine respects_bind (respects_call trivial) fun opened => ?_
      refine respects_ite (respects_pure _) ?_
      refine respects_bind respects_get fun s => ?_
      refine respects_bind (respects_call trivial) fun _ => ?_
      refine respects_bind (respects_call trivial) fun _ => ?_
      refine respects_bind (transact_respects (fun _ _ => trivial) trivial) fun r => ?_
      exact respects_ite (respects_pure _) (respects_pure _)

/-! ### When the promise is kept -/

section Kept

variable {lib : FpLib} {fp userFp : FujiProfile} {h : History} {rc : Rc}

/-- The condition under which the promise is kept. -/
def PromiseCond (lib : FpLib) (fp userFp : FujiProfile) (h : History) : Prop :=
  ∀ blob, blobOf h = some blob → (lib.parseFp1 userFp).1 = 0 →
    (lib.applyProfile (lib.parseFp1 userFp).2 (lib.parseD185 blob fp).2).1 = 0 →
    (lib.parseD185 blob fp).1 = 0 ∧ 0 ≤ (createdOf lib fp userFp blob).rc

/-- Without a send and with an error, the promise is kept. -/
theorem keepsPromise_of_no_send (hno : ∀ e ∈ h, ¬ e.1.IsSend) (hrc : rc ≠ .ok) :
    KeepsPromise lib fp userFp h rc := by
  refine ⟨fun data len hmem => ?_, fun _ => ⟨hrc, hno⟩⟩
  obtain ⟨e, he, hop⟩ := List.mem_map.mp hmem
  refine absurd ?_ (hno e he)
  rw [hop]
  exact rfl

/-- Once a profile has been sent as it was created, the promise depends on the steps. -/
theorem keepsPromise_of_sent {blob : List UInt8} (hblob : blobOf h = some blob)
    (hsent : .ptp (.setPropValueData dpcRawConvProfile (createdOf lib fp userFp blob).written
      (UInt32.ofInt (createdOf lib fp userFp blob).rc)) ∈ h.map Sigma.fst)
    (honly : ∀ data len, .ptp (.setPropValueData dpcRawConvProfile data len) ∈ h.map Sigma.fst →
      data = (createdOf lib fp userFp blob).written ∧
        len = UInt32.ofInt (createdOf lib fp userFp blob).rc) :
    KeepsPromise lib fp userFp h rc ↔ StepsOk lib fp userFp blob := by
  constructor
  · rintro ⟨hsend, -⟩
    obtain ⟨blob', hblob', hok, -⟩ := hsend _ _ hsent
    obtain rfl : blob = blob' := Option.some.inj (hblob.symm.trans hblob')
    exact hok
  · intro hok
    refine ⟨fun data len hmem => ⟨blob, hblob, hok, honly data len hmem⟩, fun hno => ?_⟩
    exact absurd ⟨blob, hblob, hok⟩ hno

/-- What follows the send neither brings a profile nor sends another. -/
theorem keepsPromise_of_append {blob : List UInt8} (hblob : blobOf h = some blob)
    (hno : ∀ e ∈ h, ¬ e.1.IsSend) {c : PtpCommand}
    (hc : c = .setPropValueData dpcRawConvProfile (createdOf lib fp userFp blob).written
      (UInt32.ofInt (createdOf lib fp userFp blob).rc)) (r : Resp c)
    {t : History} (ht : ∀ e ∈ t, e.1.NoProfile) :
    blobOf (h ++ [⟨.ptp c, r⟩] ++ t) = some blob ∧
      (KeepsPromise lib fp userFp (h ++ [⟨.ptp c, r⟩] ++ t) rc ↔
        StepsOk lib fp userFp blob) := by
  have hblob' : blobOf (h ++ [⟨.ptp c, r⟩] ++ t) = some blob := by
    rw [blobOf_append ht, blobOf_append_of_some hblob]
  refine ⟨hblob', keepsPromise_of_sent hblob' ?_ fun data len hmem => ?_⟩
  · simp [hc]
  · rw [List.map_append, List.map_append, List.mem_append, List.mem_append] at hmem
    rcases hmem with (hmem | hmem) | hmem
    · obtain ⟨e, he, hop⟩ := List.mem_map.mp hmem
      exact absurd (hop ▸ rfl : e.1.IsSend) (hno e he)
    · subst hc
      simpa using hmem
    · obtain ⟨e, he, hop⟩ := List.mem_map.mp hmem
      have hno := ht e he
      rw [hop] at hno
      exact hno.elim

theorem wp_sendProfile {blob : List UInt8} (hblob : blobOf h = some blob)
    (hno : ∀ e ∈ h, ¬ e.1.IsSend) (outputPath : String) (s : PtpRuntime) :
    wp (sendProfile (createdOf lib fp userFp blob) outputPath)
      (fun h' rc _ => blobOf h' = some blob ∧
        (KeepsPromise lib fp userFp h' rc ↔ StepsOk lib fp userFp blob)) h s := by
  -- the length is unsigned, so the check of the source never fires
  have hpos : ¬ UInt32.ofInt (createdOf lib fp userFp blob).rc < 0 := by simp
  rw [sendProfile, if_neg hpos, wp_bind, wp_transact]
  intro r
  rw [wp_ite]
  refine ⟨fun _ => ?_, fun _ => ?_⟩
  · simpa using keepsPromise_of_append hblob hno rfl r (t := []) (by simp)
  · have hrest : Respects Op.NoProfile AnyState (do
        let r ← transact (.setPropValue16 dpcStartRawConversion 0)
        if r.rc ≠ .ok then return r.rc else waitForImage outputPath 20) :=
      respects_bind (transact_respects (fun _ _ => trivial) trivial) fun r => respects_ite (respects_pure _)
        ((waitForImage_respects outputPath 20).mono fun _ => Op.Quiet.noProfile)
    exact hrest.wp fun t rc s' ht _ => keepsPromise_of_append hblob hno rfl r ht

/-- As long as no profile has been downloaded, and nothing been sent, there is nothing to
keep but the code. -/
theorem keepsPromise_iff_of_none (hblob : blobOf h = none) (hno : ∀ e ∈ h, ¬ e.1.IsSend)
    (hrc : rc ≠ .ok) : KeepsPromise lib fp userFp h rc ↔ PromiseCond lib fp userFp h :=
  iff_of_true (keepsPromise_of_no_send hno hrc) fun blob hb => by simp [hblob] at hb

theorem wp_convertProfile {blob : List UInt8} (hblob : blobOf h = some blob)
    (hno : ∀ e ∈ h, ¬ e.1.IsSend) (outputPath : String) (s : PtpRuntime) :
    wp (convertProfile lib fp userFp blob outputPath)
      (fun h' rc _ => KeepsPromise lib fp userFp h' rc ↔ PromiseCond lib fp userFp h') h s := by
  rw [convertProfile, wp_ite]
  refine ⟨fun huser => ?_, fun huser => ?_⟩
  · rw [wp_ite]
    refine ⟨fun hmerge => ?_, fun hmerge => ?_⟩
    · refine iff_of_true (keepsPromise_of_no_send hno (by simp)) fun blob' hblob' _ hok => ?_
      obtain rfl : blob = blob' := Option.some.inj (hblob.symm.trans hblob')
      exact absurd hok hmerge
    · refine wp_mono ?_ (wp_sendProfile hblob hno outputPath s)
      rintro h' rc s' ⟨hblob', hiff⟩
      rw [hiff]
      constructor
      · rintro ⟨hdec, -, -, henc⟩ blob' hb _ _
        obtain rfl : blob = blob' := Option.some.inj (hblob'.symm.trans hb)
        exact ⟨hdec, henc⟩
      · intro hcond
        obtain ⟨hdec, henc⟩ := hcond blob hblob' huser (not_not.mp hmerge)
        exact ⟨hdec, huser, not_not.mp hmerge, henc⟩
  · exact iff_of_true (keepsPromise_of_no_send hno (by simp)) fun _ _ hok =>
      absurd hok huser

/-- **When `fuji_process_raf` keeps its promise**: in a run that has downloaded the profile
of the camera, where the file is accepted and merged, just if the blob is accepted and the
encoder succeeds. -/
theorem fujiProcessRaf_keepsPromise_iff {inputRafPath outputPath : String}
    {s s' : PtpRuntime}
    (hrun : Exec (fujiProcessRaf lib fp userFp inputRafPath outputPath) s h rc s') :
    KeepsPromise lib fp userFp h rc ↔ PromiseCond lib fp userFp h := by
  suffices hwp : wp (fujiProcessRaf lib fp userFp inputRafPath outputPath)
      (fun h rc _ => KeepsPromise lib fp userFp h rc ↔ PromiseCond lib fp userFp h) [] s from
    wp_iff.mp hwp h rc s' hrun
  rw [fujiProcessRaf, wp_bind, wp_get, wp_ite]
  refine ⟨fun _ => keepsPromise_iff_of_none rfl (by simp) (by simp), fun _ => ?_⟩
  rw [wp_bind]
  refine (fujiSendRaf_respects inputRafPath).wp fun t rc s ht _ => ?_
  have hno : ∀ e ∈ t, ¬ e.1.IsSend := fun e he => (ht e he).not_isSend
  have hnone : blobOf t = none := blobOf_append (h := []) fun e he => (ht e he).noProfile
  rw [List.nil_append, wp_ite]
  refine ⟨fun hrc => keepsPromise_iff_of_none hnone hno hrc, fun _ => ?_⟩
  rw [wp_bind, wp_ptpMutexLock]
  intro a
  rw [wp_bind, wp_transact]
  intro r
  rw [wp_ite]
  refine ⟨fun hrc => ?_, fun hrc => ?_⟩
  · rw [wp_bind, wp_ptpMutexUnlock]
    intro b
    refine keepsPromise_iff_of_none ?_ (not_isSend_download hno a r b) hrc
    rw [blobOf_download hnone, if_neg hrc]
  -- the profile is there: the rest depends on the four steps
  · rw [wp_bind, wp_get, wp_bind, wp_ptpMutexUnlock]
    intro b
    refine wp_convertProfile ?_ (not_isSend_download hno a r b) outputPath _
    rw [blobOf_download hnone, if_pos (not_not.mp hrc), PtpRuntime.answered_payload]

end Kept

/-! ### Runs -/

/-- A RAF file may be sent. -/
theorem fujiSendRaf_run (path : String) (s : PtpRuntime) :
    ∃ h s', Exec (fujiSendRaf path) s h .ok s' := by
  let r : Resp (.sendObject [0] 0) := ⟨.ok, [], ()⟩
  have hobject : Exec (do let r ← transact (.sendObject [0] 0); return r.rc)
      (s.answered []) [⟨.ptp (.sendObject [0] 0), r⟩] .ok ((s.answered []).answered []) :=
    exec_bind (exec_transact r) (exec_pure _)
  exact ⟨_, _, exec_bind (exec_ask true) <| exec_ite_neg (by simp) <|
    exec_bind (exec_ask (0 : Int)) <| exec_bind (exec_ask (some [0])) <|
    exec_bind (exec_ask []) <| exec_bind (exec_ask ()) <|
    exec_bind (exec_transact ⟨.ok, [], ()⟩) <| exec_ite_neg (by simp) hobject⟩

/-- The first look may find the image. -/
theorem waitForImage_run (outputPath : String) (n : ℕ) (s : PtpRuntime) :
    ∃ h s', Exec (waitForImage outputPath (n + 1)) s h .ok s' :=
  ⟨_, _, exec_bind (exec_transact ⟨.ok, [], [1]⟩) <| exec_ite_neg (by simp) <|
    exec_bind (exec_transact ⟨.ok, [], ()⟩) <| exec_ite_neg (by simp) <|
    exec_bind (exec_ask true) <| exec_ite_neg (by simp) <|
    exec_bind exec_get <| exec_bind (exec_ask ()) <| exec_bind (exec_ask ()) <|
    exec_bind (exec_transact ⟨.ok, [], ()⟩) <| exec_ite_neg (by simp) <| exec_pure _⟩

/-- Whatever the encoder returned may be sent, and taken. -/
theorem sendProfile_run (created : Created) (outputPath : String) (s : PtpRuntime) :
    ∃ h s', Exec (sendProfile created outputPath) s h .ok s' ∧
      .ptp (.setPropValueData dpcRawConvProfile created.written (UInt32.ofInt created.rc))
        ∈ h.map Sigma.fst := by
  obtain ⟨h, s', hwait⟩ := waitForImage_run outputPath 19 ((s.answered []).answered [])
  have hpos : ¬ UInt32.ofInt created.rc < 0 := by simp
  rw [sendProfile, if_neg hpos]
  exact ⟨_, _, exec_bind (exec_transact ⟨.ok, [], ()⟩) <| exec_ite_neg (by simp) <|
    exec_bind (exec_transact ⟨.ok, [], ()⟩) <| exec_ite_neg (by simp) hwait, by simp⟩

theorem convertProfile_run {lib : FpLib} {fp userFp : FujiProfile} {blob : List UInt8}
    (huser : (lib.parseFp1 userFp).1 = 0)
    (hmerge : (lib.applyProfile (lib.parseFp1 userFp).2 (lib.parseD185 blob fp).2).1 = 0)
    (outputPath : String) (s : PtpRuntime) :
    ∃ h s', Exec (convertProfile lib fp userFp blob outputPath) s h .ok s' ∧
      .ptp (.setPropValueData dpcRawConvProfile (createdOf lib fp userFp blob).written
        (UInt32.ofInt (createdOf lib fp userFp blob).rc)) ∈ h.map Sigma.fst := by
  obtain ⟨h, s', hsend, hmem⟩ := sendProfile_run (createdOf lib fp userFp blob) outputPath s
  exact ⟨h, s', exec_ite_pos huser (exec_ite_neg (not_not.mpr hmerge) hsend), hmem⟩

/-- Once the file is accepted and merged, whatever the decoder said, a profile may be sent,
and with success. -/
theorem fujiProcessRaf_run {lib : FpLib} {fp userFp : FujiProfile} {blob : List UInt8}
    (huser : (lib.parseFp1 userFp).1 = 0)
    (hmerge : (lib.applyProfile (lib.parseFp1 userFp).2 (lib.parseD185 blob fp).2).1 = 0)
    (hcopy : copyPayload blob = blob) (inputRafPath outputPath : String) {s : PtpRuntime}
    (hs : s.transport = .rawConv) :
    ∃ h s', Exec (fujiProcessRaf lib fp userFp inputRafPath outputPath) s h .ok s' ∧
      .ptp (.setPropValueData dpcRawConvProfile (createdOf lib fp userFp blob).written
        (UInt32.ofInt (createdOf lib fp userFp blob).rc)) ∈ h.map Sigma.fst ∧
      blobOf h = some blob := by
  obtain ⟨h, s₁, hraf⟩ := fujiSendRaf_run inputRafPath s
  obtain ⟨h', s', hconv, hmem⟩ :=
    convertProfile_run huser hmerge outputPath (s₁.answered blob)
  have hnone : blobOf h = none := blobOf_append (h := []) fun e he =>
    ((fujiSendRaf_respects inputRafPath s h .ok s₁ hraf).1 e he).noProfile
  refine ⟨_, _, exec_bind exec_get <| exec_ite_neg (not_not.mpr hs) <| exec_bind hraf <|
    exec_ite_neg (by simp) <| exec_bind (exec_ask ()) <|
    exec_bind (exec_transact ⟨.ok, blob, ()⟩) <| exec_ite_neg (by simp) <|
    exec_bind exec_get <| exec_bind (exec_ask ())
      (by rw [PtpRuntime.answered_payload, hcopy]; exact hconv), ?_, ?_⟩
  · simp only [List.map_append, List.mem_append, hmem, or_true]
  · have hblob := blobOf_append_of_some (t := h')
      ((blobOf_download hnone () ⟨.ok, blob, ()⟩ ()).trans (by rw [if_pos rfl, hcopy]))
    simpa using hblob

/-- A runtime that is ready to convert. -/
def rawConvRuntime : PtpRuntime := { fujiPtpNew with transport := .rawConv }

/-- A file with nothing but a code. -/
def codeFile : Document where
  name := some "ConversionProfile"
  attrs := [("application", "XRFC"), ("version", "1.12.0.0")]
  child := some ⟨"PropertyGroup", [⟨"IOPCode", "FF179502", false⟩]⟩

/-- The library at work on a file, with empty locals. -/
abbrev fpLibOf (d : Document) : FpLib := fpLib (some d) ⟨fun _ => 0, fun _ => 0⟩

theorem copyPayload_cameraBlob : copyPayload cameraBlob = cameraBlob := by decide +kernel

theorem fujiProcessRaf_keepsPromise_codeFile : ∃ h s',
    Exec (fujiProcessRaf (fpLibOf codeFile) .zero .zero "DSCF0001.RAF" "DSCF0001.JPG")
      rawConvRuntime h .ok s' ∧
    blobOf h = some cameraBlob ∧
    (KeepsPromise (fpLibOf codeFile) .zero .zero h .ok ↔
      PromiseCond (fpLibOf codeFile) .zero .zero h) := by
  have huser : ((fpLibOf codeFile).parseFp1 .zero).1 = 0 := by decide +kernel
  have hmerge : ((fpLibOf codeFile).applyProfile ((fpLibOf codeFile).parseFp1 .zero).2
      ((fpLibOf codeFile).parseD185 cameraBlob .zero).2).1 = 0 := by
    decide +kernel
  obtain ⟨h, s', hrun, -, hblob⟩ := fujiProcessRaf_run huser hmerge copyPayload_cameraBlob
    "DSCF0001.RAF" "DSCF0001.JPG" (s := rawConvRuntime) rfl
  exact ⟨h, s', hrun, hblob, fujiProcessRaf_keepsPromise_iff hrun⟩

/-- The encoder refuses the shift of 5, and its -1 is taken for a length. -/
theorem fujiProcessRaf_shiftFile_sent :
    ¬ ∀ h rc s', Exec (fujiProcessRaf (fpLibOf shiftFile) .zero .zero "DSCF0001.RAF"
      "DSCF0001.JPG") rawConvRuntime h rc s' →
      KeepsPromise (fpLibOf shiftFile) .zero .zero h rc := by
  intro hkeeps
  have huser : ((fpLibOf shiftFile).parseFp1 .zero).1 = 0 := by decide +kernel
  have hmerge : ((fpLibOf shiftFile).applyProfile ((fpLibOf shiftFile).parseFp1 .zero).2
      ((fpLibOf shiftFile).parseD185 cameraBlob .zero).2).1 = 0 := by
    decide +kernel
  obtain ⟨h, s', hrun, hsent, hblob⟩ := fujiProcessRaf_run huser hmerge copyPayload_cameraBlob
    "DSCF0001.RAF" "DSCF0001.JPG" (s := rawConvRuntime) rfl
  obtain ⟨blob, hblob', ⟨-, -, -, henc⟩, -⟩ := (hkeeps h .ok s' hrun).1 _ _ hsent
  obtain rfl : cameraBlob = blob := Option.some.inj (hblob.symm.trans hblob')
  have hrefused : (createdOf (fpLibOf shiftFile) .zero .zero cameraBlob).rc = -1 := by
    decide +kernel
  rw [hrefused] at henc
  exact absurd henc (by norm_num)

end Fuji
