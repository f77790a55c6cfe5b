/-
Reading the Exif header of an object bit by bit.

`Agrees file len`: the reader started on the first `len` bytes, with a callback that fetches
the rest as `my_add` does, ends as the reader on the whole object without a callback.
`exif_agrees_iff` says when: all that the reader asks of the object lies inside the object
and inside what has been fetched by then, or the object is shorter than 100 bytes and no
continuation of it has an Exif header.

The whole run refuses a size that the object does not have, where the other one fetches bytes
that do not exist.  A run from which nothing is refused fails only where there is no Exif
header (`exifStartRaw_run`), so that the two can only agree in front of it.
-/
import LibFuji.ExifJpeg

namespace Fuji

open ByteCodec Interaction

namespace Exif

/-- `my_add` extends the buffer to the new length and fills in the bytes the object has. -/
def GetMore.myAdd (file : List UInt8) : GetMore := fun c newLen more =>
  ∃ buf, more = some buf ∧ buf.length = newLen.toNat ∧
    (∀ i < newLen.toNat, i < c.length.toNat → buf[i]? = c.bytes[i]?) ∧
    ∀ i < newLen.toNat, c.length.toNat ≤ i → i < file.length → buf[i]? = file[i]?

/-- Every run on the buffer stays in range and ends with the return value and the thumbnail. -/
def EndsWith (get : GetMore) (c : Buffer) (rc : Int) (thumbOf thumbSize : UInt32) : Prop :=
  ∀ h rc' s c', Exec exifStartRaw .zero h rc' s → Follows get c h c' →
    InRange c.length h ∧ rc' = rc ∧ s.thumbOf = thumbOf ∧ s.thumbSize = thumbSize

/-- The incremental run ends as the run on the whole object. -/
def Agrees (file : List UInt8) (len : UInt32) : Prop :=
  ∃ rc thumbOf thumbSize,
    EndsWith .null ⟨file, UInt32.ofNat file.length⟩ rc thumbOf thumbSize ∧
    EndsWith (.myAdd file) ⟨file.take len.toNat, len⟩ rc thumbOf thumbSize

/-- What the reader asks of the object lies inside it, and what it reads inside the part of
it that has been fetched by then. -/
def Fits (file : List UInt8) (len : UInt32) : Prop :=
  ∃ h rc s, Exec exifStartRaw .zero h rc s ∧ OnFile file h ∧ InRange len h

/-- Where the image of a file starts: at 0, or behind a RAF header. -/
def imageStart (file : List UInt8) : ℕ :=
  if file.take 15 = ascii "FUJIFILMCCD-RAW" then leNat ((file.drop 0x54).take 4).reverse else 0

/-- The image starts as a JPEG does, and has no Exif header. -/
def NoExif (file : List UInt8) : Prop :=
  let of := imageStart file
  (file.drop of).take 2 = [0xff, 0xd8] ∧
    (file.drop (if (file.drop (of + 6)).take 4 = ascii "JFIF" then of + 24 else of + 6)).take 6
      ≠ ascii "Exif" ++ [0, 0]

/-- The object is too short for the first size that is asked for, and with whatever bytes it is
continued to the 1100 that are fetched then, there is no Exif header. -/
def Short (file : List UInt8) : Prop :=
  file.length < 100 ∧ ∀ V, file <+: V → V.length = 1100 → NoExif V

/-! ### The reader finishes -/

theorem total_ensureSize (length : UInt32) : Total (ensureSize length) := total_call _

theorem total_readBytes (field : ExifField) (of : UInt32) (n : ℕ) :
    Total (readBytes field of n) := total_call _

theorem total_read {α : Type} (field : ExifField) (of : UInt32) {n : ℕ} (g : Vector UInt8 n → α) :
    Total (readBytes field of n >>= fun b => pure (g b)) :=
  total_bind (total_readBytes field of n) fun _ => total_pure _

theorem total_parseEntries (n : ℕ) (of : UInt32) : Total (parseEntries n of) := by
  induction n generalizing of with
  | zero => exact total_pure _
  | succ n ih =>
    refine total_bind (total_ensureSize _) fun ok => total_ite (total_pure _) ?_
    refine total_bind (total_read _ _ _) fun tag => total_bind (total_read _ _ _) fun _ => ?_
    refine total_bind (total_read _ _ _) fun _ => total_bind (total_read _ _ _) fun value => ?_
    exact total_bind (total_modify _) fun _ => ih _

theorem total_exifParseIfd (of : UInt32) : Total (exifParseIfd of) := by
  refine total_bind (total_read _ _ _) fun entries => total_bind (total_parseEntries _ _) fun r => ?_
  refine total_ite (total_pure _) (total_bind (total_bind total_get fun c => ?_) fun rc =>
    total_pure _)
  exact total_ite (total_bind (total_ensureSize _) fun ok => total_pure _) (total_pure _)

theorem total_parseOther (pointer : UInt32) : Total (parseOther pointer) := by
  refine total_ite (total_bind total_get fun c => total_bind (total_ensureSize _) fun ok => ?_)
    (total_pure _)
  exact total_ite (total_pure _) (total_bind (total_exifParseIfd _) fun r => total_pure _)

theorem total_exifStartEntries (of : UInt32) : Total (exifStartEntries of) := by
  refine total_bind (total_read _ _ _) fun _ => total_bind (total_read _ _ _) fun _ => ?_
  refine total_bind (total_read _ _ _) fun offset => total_bind (total_exifParseIfd _) fun r => ?_
  refine total_ite (total_pure _) (total_bind (total_read _ _ _) fun ifd1 => ?_)
  refine total_bind (total_parseOther _) fun rc => total_ite (total_pure _) ?_
  exact total_bind total_get fun c => total_parseOther _

theorem total_startImage (of : UInt32) : Total (startImage of) := by
  have hexif (of : UInt32) : Total (startExif of) :=
    total_bind (total_readBytes _ _ _) fun b =>
      total_ite (total_bind (total_modify _) fun _ => total_exifStartEntries _) (total_pure _)
  refine total_bind (total_readBytes _ _ _) fun b0 => total_ite ?_ (total_pure _)
  refine total_bind (total_readBytes _ _ _) fun b1 => total_ite ?_ (total_pure _)
  refine total_bind (total_read _ _ _) fun _ => total_bind (total_read _ _ _) fun _ => ?_
  exact total_bind (total_readBytes _ _ _) fun b => total_ite (hexif _) (hexif _)

theorem total_exifStartRaw : Total exifStartRaw := by
  refine total_bind (total_modify fun _ => ExifParser.zero) fun _ => ?_
  refine total_bind (total_ensureSize _) fun ok => total_ite (total_pure _) ?_
  refine total_bind (total_readBytes _ _ _) fun magic => total_ite ?_ (total_startImage _)
  refine total_bind (total_read _ _ _) fun headerLen => total_bind (total_ensureSize _) fun ok' => ?_
  exact total_ite (total_pure _) (total_startImage _)

/-! ### Refused sizes -/

/-- Every size asked for was granted. -/
def granted : ExifHistory → Bool
  | [] => true
  | ⟨.ensureSize _, ok⟩ :: h => ok && granted h
  | ⟨.read _ _ _, _⟩ :: h => granted h

@[simp] theorem granted_append (h h' : ExifHistory) :
    granted (h ++ h') = (granted h && granted h') := by
  induction h with
  | nil => rfl
  | cons e h ih =>
    rcases e with ⟨_ | _, r⟩
    · simp only [List.cons_append, granted, ih, Bool.and_assoc]
    · exact ih

/-- The return value of `m` says whether all its sizes were granted. -/
def Reports {α : Type} (m : ExifM α) (rc : α → Int) : Prop :=
  ∀ s h a s', Exec m s h a s' → rc a = if granted h then 0 else -1

/-- `m` asks for no size. -/
def AsksNone {α : Type} (m : ExifM α) : Prop := ∀ s h a s', Exec m s h a s' → granted h = true

section Reports

variable {α β : Type} {m : ExifM α} {f : α → ExifM β} {rc : β → Int}

theorem asksNone_read (field : ExifField) (of : UInt32) {n : ℕ} (g : Vector UInt8 n → α) :
    AsksNone (readBytes field of n >>= fun b => pure (g b)) := by
  rintro s _ _ _ (_ | ⟨b, ⟨⟩⟩)
  rfl

theorem asksNone_get : AsksNone (get : ExifM ExifParser) := by
  rintro s _ _ _ ⟨⟩
  rfl

theorem asksNone_modify (g : ExifParser → ExifParser) : AsksNone (modify g : ExifM PUnit) := by
  rintro s _ _ _ ⟨⟩
  rfl

theorem reports_pure {a : β} (h : rc a = 0) : Reports (pure a) rc := by
  rintro s _ _ _ ⟨⟩
  exact h

theorem reports_bind_none (hm : AsksNone m) (hf : ∀ a, Reports (f a) rc) :
    Reports (m >>= f) rc := by
  intro s h b s' hrun
  obtain ⟨h₁, a, s₁, h₂, rfl, hrun₁, hrun₂⟩ := exec_of_bind hrun
  rw [granted_append, hm s h₁ a s₁ hrun₁, Bool.true_and]
  exact hf a s₁ h₂ b s' hrun₂

/-- A size, and what follows if it is refused or granted. -/
theorem reports_ensureSize {length : UInt32} {m m' : ExifM β}
    (hfail : ∀ s h a s', Exec m s h a s' → h = [] ∧ rc a = -1) (hm : Reports m' rc) :
    Reports (ensureSize length >>= fun ok => if ok = false then m else m') rc := by
  intro s h b s' hrun
  obtain ⟨ok, h₂, rfl, hrun₂⟩ := exec_ensureSize_bind.mp hrun
  cases ok with
  | false =>
    obtain ⟨rfl, hrc⟩ := hfail _ _ _ _ hrun₂
    exact hrc
  | true =>
    rw [if_neg (by simp)] at hrun₂
    rw [granted, Bool.true_and]
    exact hm _ _ _ _ hrun₂

/-- A part that reports in front of another one. -/
theorem reports_bind {rc' : α → Int} (hm : Reports m rc')
    (hfail : ∀ a, rc' a = -1 → ∀ s h b s', Exec (f a) s h b s' → h = [] ∧ rc b = -1)
    (hf : ∀ a, rc' a = 0 → Reports (f a) rc) : Reports (m >>= f) rc := by
  intro s h b s' hrun
  obtain ⟨h₁, a, s₁, h₂, rfl, hrun₁, hrun₂⟩ := exec_of_bind hrun
  have hrc := hm s h₁ a s₁ hrun₁
  by_cases hg : granted h₁ = true
  · rw [if_pos hg] at hrc
    rw [granted_append, hg, Bool.true_and]
    exact hf a hrc _ _ _ _ hrun₂
  · rw [if_neg hg] at hrc
    obtain ⟨rfl, hb⟩ := hfail a hrc _ _ _ _ hrun₂
    simp [hg, hb]

theorem pure_fails {a : β} (ha : rc a = -1) :
    ∀ s h b s', Exec (pure a : ExifM β) s h b s' → h = [] ∧ rc b = -1 := by
  rintro s _ _ _ ⟨⟩
  exact ⟨rfl, ha⟩

end Reports

theorem reports_parseEntries (n : ℕ) (of : UInt32) : Reports (parseEntries n of) Prod.fst := by
  induction n generalizing of with
  | zero => exact reports_pure rfl
  | succ n ih =>
    refine reports_ensureSize (pure_fails rfl) ?_
    refine reports_bind_none (asksNone_read _ _ _) fun tag => ?_
    refine reports_bind_none (asksNone_read _ _ _) fun _ => ?_
    refine reports_bind_none (asksNone_read _ _ _) fun _ => ?_
    refine reports_bind_none (asksNone_read _ _ _) fun value => ?_
    exact reports_bind_none (asksNone_modify _) fun _ => ih _

theorem reports_ensureThumb : Reports ensureThumb id := by
  refine reports_bind_none asksNone_get fun c => ?_
  split
  · rintro s _ _ _ (_ | ⟨ok, ⟨⟩⟩)
    cases ok <;> rfl
  · exact reports_pure rfl

/-- The rest is not reached after a failure. -/
theorem ite_fails {α β : Type} {rc' : α → Int} {rc : β → Int} {a : α} {b : β} {m : ExifM β}
    (ha : rc' a = -1) (hb : rc b = -1) : ∀ s h x s',
      Exec (if rc' a < 0 then pure b else m) s h x s' → h = [] ∧ rc x = -1 := by
  rw [if_pos (by rw [ha]; decide)]
  exact pure_fails hb

theorem ite_reports {α β : Type} {rc' : α → Int} {rc : β → Int} {a : α} {m m' : ExifM β}
    (ha : rc' a = 0) (hm : Reports m' rc) : Reports (if rc' a < 0 then m else m') rc := by
  rwa [if_neg (by rw [ha]; decide)]

/-- A part whose return value is handed on. -/
theorem reports_map {α β : Type} {rc' : α → Int} {rc : β → Int} {m : ExifM α} {g : α → β}
    (hm : Reports m rc') (hg : ∀ a, rc (g a) = rc' a) :
    Reports (m >>= fun a => pure (g a)) rc :=
  reports_bind hm (fun a ha => pure_fails ((hg a).trans ha)) fun a ha =>
    reports_pure ((hg a).trans ha)

theorem reports_exifParseIfd (of : UInt32) : Reports (exifParseIfd of) Prod.fst := by
  refine reports_bind_none (asksNone_read _ _ _) fun entries => ?_
  refine reports_bind (reports_parseEntries _ _) (fun r hr => ite_fails hr hr) fun r hr => ?_
  exact ite_reports hr (reports_map reports_ensureThumb fun _ => rfl)

theorem reports_parseOther (pointer : UInt32) : Reports (parseOther pointer) id := by
  rw [parseOther]
  split
  · refine reports_bind_none asksNone_get fun c => ?_
    exact reports_ensureSize (pure_fails rfl) (reports_map (reports_exifParseIfd _) fun _ => rfl)
  · exact reports_pure rfl

theorem reports_exifStartEntries (of : UInt32) : Reports (exifStartEntries of) id := by
  refine reports_bind_none (asksNone_read _ _ _) fun _ => ?_
  refine reports_bind_none (asksNone_read _ _ _) fun _ => ?_
  refine reports_bind_none (asksNone_read _ _ _) fun offset => ?_
  refine reports_bind (reports_exifParseIfd _) (fun r hr => ite_fails hr hr) fun r hr => ?_
  refine ite_reports hr (reports_bind_none (asksNone_read _ _ _) fun ifd1 => ?_)
  refine reports_bind (reports_parseOther ifd1) (fun rc hrc => ite_fails hrc hrc) fun rc hrc => ?_
  exact ite_reports hrc (reports_bind_none asksNone_get fun c => reports_parseOther c.subifd)

/-! ### Files without an Exif header -/

/-- What is in memory when every size is granted: the bytes of a file, and zeros behind it. -/
def paddedOracle (V : List UInt8) : (op : ExifOp) → op.Ret
  | .ensureSize _ => true
  | .read field of n => fileOracle V (.read field of n)

/-- The answers are those of the padded file. -/
def OnPadded (V : List UInt8) (h : ExifHistory) : Prop := ∀ e ∈ h, e.2 = paddedOracle V e.1

/-- The bytes of the padded file. -/
def padded (V : List UInt8) (of : UInt32) (n : ℕ) : List UInt8 :=
  (List.range n).map fun i => V.getD (of.toNat + i) 0

/-- The sizes that are asked for. -/
def sizes : ExifHistory → List UInt32
  | [] => []
  | ⟨.ensureSize length, _⟩ :: h => length :: sizes h
  | ⟨.read _ _ _, _⟩ :: h => sizes h

/-- The padded file has the start of a JPEG image, and no Exif header. -/
def NoHeader (V : List UInt8) (of : UInt32) : Prop :=
  padded V of 1 = [0xff] ∧ padded V (of + 1) 1 = [0xd8] ∧
    padded V (if padded V (of + 2 + 4) 4 = ascii "JFIF" then of + 2 + 4 + 0x12 else of + 2 + 4) 6
      ≠ ascii "Exif" ++ [0, 0]

/-- What is said of a run from the start of the image on: a refused size makes it fail, and
otherwise only a missing header does. -/
def Explained (V : List UInt8) (of : UInt32) (h : ExifHistory) (rc : Int) : Prop :=
  (granted h = false → rc = -1) ∧
    (granted h = true → rc = -1 → OnPadded V h → sizes h = [] ∧ NoHeader V of)

section NoExif

variable {V : List UInt8} {s s' : ExifParser} {h : ExifHistory} {rc : Int} {of : UInt32}

theorem paddedOracle_read (field : ExifField) (n : ℕ) :
    (paddedOracle V (.read field of n) : Vector UInt8 n).toList = padded V of n := by
  refine List.ext_getElem (by simp [padded]) fun i hi hi' => ?_
  simp [padded, paddedOracle, fileOracle]

/-- A read of the padded file. -/
theorem OnPadded.read {field : ExifField} {n : ℕ} {b : Vector UInt8 n}
    (hpad : OnPadded V (⟨.read field of n, b⟩ :: h)) : b.toList = padded V of n ∧ OnPadded V h := by
  obtain ⟨hb, hrest⟩ := List.forall_mem_cons.mp hpad
  refine ⟨?_, hrest⟩
  rw [show b = paddedOracle V (.read field of n) from hb, paddedOracle_read]

theorem startExif_run (hrun : Exec (startExif of) s h rc s') :
    (granted h = false → rc = -1) ∧ (granted h = true → rc = -1 → OnPadded V h →
      sizes h = [] ∧ padded V of 6 ≠ ascii "Exif" ++ [0, 0]) := by
  obtain ⟨b, h₂, rfl, hthen⟩ := exec_readBytes_bind.mp hrun
  by_cases hb : b.toList = ascii "Exif" ++ [0, 0]
  · rw [if_pos hb, exec_modify_bind] at hthen
    have hrc : rc = if granted h₂ then 0 else -1 := reports_exifStartEntries _ _ _ _ _ hthen
    have hg : granted (⟨.read .exif of 6, b⟩ :: h₂) = granted h₂ := rfl
    rw [hg]
    refine ⟨fun hf => by rw [hrc, hf]; rfl, fun ht hneg => ?_⟩
    rw [hrc, ht] at hneg
    cases hneg
  · rw [if_neg hb] at hthen
    cases hthen
    refine ⟨fun _ => rfl, fun _ _ hpad => ⟨rfl, ?_⟩⟩
    rwa [← hpad.read.1]

theorem exifStart_run (hrun : Exec (exifStart of) s h rc s') :
    (granted h = false → rc = -1) ∧ (granted h = true → rc = -1 → OnPadded V h →
      sizes h = [] ∧ padded V (if padded V (of + 4) 4 = ascii "JFIF" then of + 4 + 0x12
        else of + 4) 6 ≠ ascii "Exif" ++ [0, 0]) := by
  obtain ⟨t, h₁, rfl, hrun₁⟩ := exec_readBeU16_bind.mp hrun
  obtain ⟨l, h₂, rfl, hrun₂⟩ := exec_readBeU16_bind.mp hrun₁
  obtain ⟨b, h₃, rfl, hthen⟩ := exec_readBytes_bind.mp hrun₂
  by_cases hb : b.toList = ascii "JFIF"
  · rw [if_pos hb] at hthen
    obtain ⟨hfail, hnone⟩ := startExif_run (V := V) hthen
    refine ⟨hfail, fun hg hrc hpad => ?_⟩
    obtain ⟨hj, hrest⟩ := (hpad.read.2.read.2).read
    rw [← hj, if_pos hb]
    exact hnone hg hrc hrest
  · rw [if_neg hb] at hthen
    obtain ⟨hfail, hnone⟩ := startExif_run (V := V) hthen
    refine ⟨hfail, fun hg hrc hpad => ?_⟩
    obtain ⟨hj, hrest⟩ := (hpad.read.2.read.2).read
    rw [← hj, if_neg hb]
    exact hnone hg hrc hrest

theorem startImage_run (hrun : Exec (startImage of) s h rc s') : Explained V of h rc := by
  obtain ⟨b0, h₂, rfl, hrun₁⟩ := exec_readBytes_bind.mp hrun
  by_cases hb0 : b0.toList = [0xff]
  · rw [if_pos hb0] at hrun₁
    obtain ⟨b1, h₄, rfl, hrun₂⟩ := exec_readBytes_bind.mp hrun₁
    by_cases hb1 : b1.toList = [0xd8]
    · rw [if_pos hb1] at hrun₂
      obtain ⟨hfail, hnone⟩ := exifStart_run (V := V) hrun₂
      refine ⟨hfail, fun hg hrc hpad => ?_⟩
      obtain ⟨h0, hpad₁⟩ := hpad.read
      obtain ⟨h1, hpad₂⟩ := hpad₁.read
      obtain ⟨hsizes, hexif⟩ := hnone hg hrc hpad₂
      exact ⟨hsizes, h0 ▸ hb0, h1 ▸ hb1, hexif⟩
    · rw [if_neg hb1] at hrun₂
      cases hrun₂
      exact ⟨fun hg => Bool.noConfusion hg, fun _ hrc => absurd hrc (by decide)⟩
  · rw [if_neg hb0] at hrun₁
    cases hrun₁
    exact ⟨fun hg => Bool.noConfusion hg, fun _ hrc => absurd hrc (by decide)⟩

/-- Where the reader looks for the image of a padded file. -/
def paddedStart (V : List UInt8) : UInt32 :=
  if padded V 0 15 = ascii "FUJIFILMCCD-RAW" then
    UInt32.ofNat (leNat (padded V 0x54 4).reverse)
  else 0

theorem startFile_run (hrun : Exec startFile s h rc s') :
    (granted h = false → rc = -1) ∧ (granted h = true → rc = -1 → OnPadded V h →
      (∀ l ∈ sizes h, l = paddedStart V) ∧ NoHeader V (paddedStart V)) := by
  obtain ⟨magic, h₂, rfl, hrun₁⟩ := exec_readBytes_bind.mp hrun
  by_cases hraf : magic.toList = ascii "FUJIFILMCCD-RAW"
  · rw [if_pos hraf] at hrun₁
    obtain ⟨b, h₄, rfl, hrun₂⟩ := exec_readBeU32_bind.mp hrun₁
    obtain ⟨ok, h₆, rfl, hrun₃⟩ := exec_ensureSize_bind.mp hrun₂
    cases ok with
    | false =>
      cases hrun₃
      exact ⟨fun _ => rfl, fun hg => Bool.noConfusion hg⟩
    | true =>
      rw [if_neg (by simp)] at hrun₃
      obtain ⟨hfail, hnone⟩ := startImage_run (V := V) hrun₃
      refine ⟨hfail, fun hg hrc hpad => ?_⟩
      obtain ⟨h15, hpad₁⟩ := hpad.read
      obtain ⟨h4, hpad₂⟩ := hpad₁.read
      have hstart : UInt32.ofNat (leNat b.toList.reverse) = paddedStart V := by
        rw [paddedStart, if_pos (h15 ▸ hraf), h4]
      obtain ⟨hsizes, hno⟩ := hnone hg hrc (List.forall_mem_cons.mp hpad₂).2
      rw [hstart] at hno
      refine ⟨fun l hl => ?_, hno⟩
      have hl' : l ∈ UInt32.ofNat (leNat b.toList.reverse) :: sizes h₆ := hl
      rw [hsizes, List.mem_singleton] at hl'
      rw [hl', hstart]
  · rw [if_neg hraf] at hrun₁
    obtain ⟨hfail, hnone⟩ := startImage_run (V := V) hrun₁
    refine ⟨hfail, fun hg hrc hpad => ?_⟩
    obtain ⟨h15, hpad₁⟩ := hpad.read
    have hstart : paddedStart V = 0 := if_neg (h15 ▸ hraf)
    obtain ⟨hsizes, hno⟩ := hnone hg hrc hpad₁
    have hnil : sizes (⟨.read .rafMagic 0 15, magic⟩ :: h₂) = [] := hsizes
    rw [hstart, hnil]
    exact ⟨fun l hl => absurd hl List.not_mem_nil, hno⟩

/-- **Why a run fails**: a size was refused, or the padded file has no Exif header. -/
theorem exifStartRaw_run (hrun : Exec exifStartRaw s h rc s') :
    (granted h = false → rc = -1) ∧ (granted h = true → rc = -1 → OnPadded V h →
      (∀ l ∈ sizes h, l = 100 ∨ l = paddedStart V) ∧ NoHeader V (paddedStart V)) := by
  obtain ⟨ok, h₂, rfl, hrun₂⟩ := exec_exifStartRaw.mp hrun
  cases ok with
  | false =>
    cases hrun₂
    exact ⟨fun _ => rfl, fun hg => Bool.noConfusion hg⟩
  | true =>
    rw [if_neg (by simp)] at hrun₂
    obtain ⟨hfail, hnone⟩ := startFile_run (V := V) hrun₂
    refine ⟨hfail, fun hg hrc hpad => ?_⟩
    obtain ⟨hsizes, hno⟩ := hnone hg hrc (List.forall_mem_cons.mp hpad).2
    exact ⟨fun l hl => (List.mem_cons.mp hl).imp_right (hsizes l), hno⟩

end NoExif

/-! ### Runs on the padded file -/

section Padded

variable {V file : List UInt8} {h : ExifHistory} {of : UInt32} {len : UInt32}

theorem OnPadded.granted (hpad : OnPadded V h) : granted h = true := by
  induction h with
  | nil => rfl
  | cons e h ih =>
    obtain ⟨he, hrest⟩ := List.forall_mem_cons.mp hpad
    rcases e with ⟨_ | _, r⟩
    · have hr : r = true := he
      rw [Exif.granted, hr, ih hrest]
      rfl
    · exact ih hrest

theorem mem_sizes {length : UInt32} {r : Bool} (he : ⟨.ensureSize length, r⟩ ∈ h) :
    length ∈ sizes h := by
  induction h with
  | nil => exact absurd he List.not_mem_nil
  | cons e h ih =>
    rcases List.mem_cons.mp he with rfl | he'
    · exact List.mem_cons_self
    · rcases e with ⟨_ | _, _⟩
      · exact List.mem_cons_of_mem _ (ih he')
      · exact ih he'

/-- Where the file has all the sizes, the answers are its own. -/
theorem OnPadded.onAnswers (hpad : OnPadded V h) (hsizes : ∀ l ∈ sizes h, l.toNat ≤ V.length) :
    ∀ e ∈ h, e.2 = fileOracle V e.1 := by
  rintro ⟨length | ⟨field, of, n⟩, r⟩ he
  · have hr : r = true := hpad _ he
    rw [hr]
    exact (decide_eq_true (hsizes length (mem_sizes he))).symm
  · exact hpad _ he

theorem OnFile.onPadded (hon : OnFile V h) : OnPadded V h := by
  rintro ⟨length | ⟨field, of, n⟩, r⟩ he
  · obtain ⟨hans, hin⟩ := hon _ he
    have hr : r = decide (length.toNat ≤ V.length) := hans
    rw [hr]
    exact decide_eq_true hin
  · exact (hon _ he).1

/-- A run in range on the answers of a file, all of whose sizes were granted, is a run inside
the file. -/
theorem onFile_of_granted (hans : ∀ e ∈ h, e.2 = fileOracle file e.1) (hg : granted h = true)
    (hlen : len.toNat = file.length) (hin : InRange len h) : OnFile file h := by
  induction h with
  | nil => exact fun e he => absurd he List.not_mem_nil
  | cons e h ih =>
    obtain ⟨he, hrest⟩ := List.forall_mem_cons.mp hans
    rcases e with ⟨length | ⟨field, of, n⟩, r⟩
    · obtain ⟨hr, hg'⟩ := Bool.and_eq_true_iff.mp hg
      have hdec : r = decide (length.toNat ≤ file.length) := he
      have hle : length.toNat ≤ file.length := of_decide_eq_true (hdec ▸ hr)
      have hgrown : grown len length r = len := by
        refine if_neg fun hlt => absurd hlt.2 (UInt32.not_lt.mpr ?_)
        exact UInt32.le_iff_toNat_le.mpr (hlen ▸ hle)
      rw [InRange, AllReads, hgrown] at hin
      exact List.forall_mem_cons.mpr ⟨⟨he, hle⟩, ih hrest hg' hin⟩
    · have hbelow : of.toNat + n ≤ len.toNat := hin.1
      rw [hlen] at hbelow
      exact List.forall_mem_cons.mpr ⟨⟨he, hbelow⟩, ih hrest hg hin.2⟩

/-- The buffer shows the padded file. -/
def Buffer.ShowsPadded (V : List UInt8) (c : Buffer) : Prop :=
  ∀ i < c.length.toNat, c.bytes[i]? = some (V.getD i 0)

/-- Whatever bytes follow the object, `my_add` may fetch them. -/
theorem OnPadded.follows (hpre : file <+: V) {c : Buffer} (hc : c.ShowsPadded V)
    (hpad : OnPadded V h) : ∃ c', Follows (.myAdd file) c h c' := by
  induction h generalizing c with
  | nil => exact ⟨c, .nil c⟩
  | cons e h ih =>
    obtain ⟨he, hrest⟩ := List.forall_mem_cons.mp hpad
    rcases e with ⟨length | ⟨field, of, n⟩, r⟩
    · have hr : r = true := he
      by_cases hlen : length > c.length
      · let buf := (List.range (length + 1000).toNat).map fun i => V.getD i 0
        have hbuf : Buffer.ShowsPadded V ⟨buf, length + 1000⟩ := by
          intro i hi
          rw [List.getElem?_map, List.getElem?_range hi, Option.map_some]
        have hadd : GetMore.myAdd file c (length + 1000) (some buf) := by
          refine ⟨buf, rfl, by simp [buf], fun i hi hic => ?_, fun i hi _ hif => ?_⟩
          · rw [hbuf i hi, hc i hic]
          · obtain ⟨tail, rfl⟩ := hpre
            rw [hbuf i hi, List.getD_append _ _ _ _ hif, List.getD_eq_getElem _ _ hif,
              List.getElem?_eq_getElem hif]
        obtain ⟨c', hfollows⟩ := ih hbuf hrest
        have hstep := @Follows.ensureSize (.myAdd file) c c' length h (some buf) (fun _ => hadd)
          (by rw [ensureSize_more hlen]; exact hfollows)
        rw [ensureSize_more hlen, ← hr] at hstep
        exact ⟨c', hstep⟩
      · obtain ⟨c', hfollows⟩ := ih hc hrest
        have hstep := @Follows.ensureSize (.myAdd file) c c' length h none
          (fun h => absurd h hlen) (by rw [ensureSize_fits hlen]; exact hfollows)
        rw [ensureSize_fits hlen, ← hr] at hstep
        exact ⟨c', hstep⟩
    · have hr : r = paddedOracle V (.read field of n) := he
      obtain ⟨c', hfollows⟩ := ih hc hrest
      refine ⟨c', .read (fun i hi hin => ?_) hfollows⟩
      rw [hc _ hin, hr]
      simp [paddedOracle, fileOracle]

theorem padded_eq {n : ℕ} (h : of.toNat + n ≤ V.length) :
    padded V of n = (V.drop of.toNat).take n := by
  rw [← @paddedOracle_read V of .rafMagic n]
  exact @fileOracle_read V .rafMagic of n h

/-- Bytes that are not zero are those of the file. -/
theorem padded_eq_iff {m : List UInt8} (hm : 0 ∉ m) :
    padded V of m.length = m ↔ (V.drop of.toNat).take m.length = m := by
  by_cases hle : of.toNat + m.length ≤ V.length
  · rw [padded_eq hle]
  rcases List.eq_nil_or_concat m with rfl | ⟨l, b, rfl⟩
  · simp [padded]
  -- the last byte lies behind the end
  have hlen : V.length ≤ of.toNat + l.length := by
    simp at hle
    omega
  refine iff_of_false (fun h => hm ?_) fun h => ?_
  · have hlast := congrArg (fun m => m[l.length]?) h
    have hb : 0 = b := by simpa [padded, List.getElem?_eq_none hlen] using hlast
    rw [hb]
    simp
  · have hlen' := congrArg List.length h
    simp at hlen'
    omega

/-- A file of 1100 bytes is as long as the reader needs to find the start of the image. -/
theorem imageStart_eq (hV : V.length = 1100) : imageStart V = (paddedStart V).toNat := by
  have h15 : padded V 0 15 = V.take 15 := padded_eq (by rw [hV]; decide)
  have h4 : padded V 0x54 4 = (V.drop 0x54).take 4 := padded_eq (by rw [hV]; decide)
  rw [imageStart, paddedStart, h15, h4]
  split
  · refine (UInt32.toNat_ofNat_of_lt' (lt_of_lt_of_le (leNat_lt _) ?_)).symm
    simp [hV, UInt32.size]
  · rfl

/-- Where the reader finds no header in the padded file, there is none in the file. -/
theorem NoHeader.noExif (hV : V.length = 1100) (h : NoHeader V (paddedStart V)) : NoExif V := by
  obtain ⟨h0, h1, hexif⟩ := h
  have hstart := imageStart_eq hV
  generalize hof : paddedStart V = of at h0 h1 hexif hstart
  have hff : (V.drop of.toNat).take 1 = [0xff] := (padded_eq_iff (m := [0xff]) (by decide)).mp h0
  have hlt : of.toNat < 1100 := by
    have hlen := congrArg List.length hff
    simp at hlen
    omega
  have hadd (k : UInt32) (hk : k.toNat ≤ 24) : (of + k).toNat = of.toNat + k.toNat :=
    toNat_add_of_lt (by omega)
  have hd8 : (V.drop (of.toNat + 1)).take 1 = [0xd8] := by
    have htake := (padded_eq_iff (m := [0xd8]) (by decide)).mp h1
    rwa [hadd 1 (by decide)] at htake
  have h6 : of + 2 + 4 = of + 6 := by grind
  have h24 : of + 6 + 0x12 = of + 24 := by grind
  rw [h6, h24] at hexif
  have hjfif : padded V (of + 6) 4 = ascii "JFIF"
      ↔ (V.drop (of.toNat + 6)).take 4 = ascii "JFIF" := by
    have hiff := @padded_eq_iff V (of + 6) (ascii "JFIF") (by decide)
    rwa [hadd 6 (by decide)] at hiff
  -- a header that is there is read
  have hread (k : UInt32) (hk : k.toNat ≤ 24)
      (hb : (V.drop (of.toNat + k.toNat)).take 6 = ascii "Exif" ++ [0, 0]) :
      padded V (of + k) 6 = ascii "Exif" ++ [0, 0] := by
    have hlen := congrArg List.length hb
    simp [ascii] at hlen
    rw [padded_eq (by rw [hadd k hk]; omega), hadd k hk, hb]
  rw [NoExif, hstart]
  refine ⟨?_, fun hb => hexif ?_⟩
  · rw [show (2 : ℕ) = 1 + 1 from rfl, List.take_add, List.drop_drop, hff, hd8]
    rfl
  · by_cases hj : padded V (of + 6) 4 = ascii "JFIF"
    · rw [if_pos hj]
      rw [if_pos (hjfif.mp hj)] at hb
      exact hread 24 (by decide) hb
    · rw [if_neg hj]
      rw [if_neg (mt hjfif.mpr hj)] at hb
      exact hread 6 (by decide) hb

end Padded

/-! ### Short objects -/

section ShortObjects

variable {V : List UInt8} {s : ExifParser} {of : UInt32}

/-- Bytes at an offset, as they are. -/
theorem fileRun_readDrop (field : ExifField) {n : ℕ} (h : of.toNat + n ≤ V.length) :
    ∃ b : Vector UInt8 n, b.toList = (V.drop of.toNat).take n ∧
      FileRun V (readBytes field of n) s b s :=
  ⟨_, fileOracle_read h, fileRun_readBytes h⟩

theorem fileRun_startExif_noExif (hlen : of.toNat + 6 ≤ V.length)
    (hno : (V.drop of.toNat).take 6 ≠ ascii "Exif" ++ [0, 0]) :
    FileRun V (startExif of) s (-1) s := by
  obtain ⟨b, hb, hread⟩ := @fileRun_readDrop V s of .exif 6 hlen
  exact fileRun_bind hread (fileRun_ite_neg (by rwa [hb]) (fileRun_pure _))

/-- An image without an Exif header makes the reader fail. -/
theorem fileRun_startImage_noExif (hV : V.length = 1100) (hof : of.toNat + 2 ≤ 100)
    (hstart : imageStart V = of.toNat) (hno : NoExif V) :
    FileRun V (startImage of) s (-1) s := by
  rw [NoExif, hstart] at hno
  obtain ⟨hmarker, hexif⟩ := hno
  have hadd (k : UInt32) (hk : k.toNat ≤ 24) : (of + k).toNat = of.toNat + k.toNat :=
    toNat_add_of_lt (by omega)
  have hin (k : UInt32) (n : ℕ) (hk : k.toNat ≤ 24) (hn : n ≤ 6) :
      (of + k).toNat + n ≤ V.length := by
    rw [hadd k hk]
    omega
  have htwo : (V.drop of.toNat).take 1 ++ (V.drop (of.toNat + 1)).take 1 = [0xff, 0xd8] := by
    rw [← hmarker, show (2 : ℕ) = 1 + 1 from rfl, List.take_add, List.drop_drop]
  obtain ⟨b0, hb0, hread0⟩ := @fileRun_readDrop V s of .marker 1 (by omega)
  obtain ⟨b1, hb1, hread1⟩ := @fileRun_readDrop V s (of + 1) .marker 1 (hin 1 1 (by decide)
    (by decide))
  rw [hadd 1 (by decide)] at hb1
  have hbytes : b0.toList = [0xff] ∧ b1.toList = [0xd8] := by
    rw [← hb0] at htwo
    have hb1' : b0.toList ++ b1.toList = [0xff] ++ [0xd8] := by rw [hb1]; exact htwo
    exact List.append_inj hb1' (by simp)
  refine fileRun_bind hread0 (fileRun_ite_pos hbytes.1 ?_)
  refine fileRun_bind hread1 (fileRun_ite_pos hbytes.2 ?_)
  obtain ⟨v, htype⟩ := @fileRun_readBeU16 V s .segment (of + 2) (hin 2 2 (by decide) (by decide))
  have h4 : of + 2 + 2 = of + 4 := by grind
  have h6 : of + 2 + 4 = of + 6 := by grind
  have h24 : of + 6 + 0x12 = of + 24 := by grind
  obtain ⟨w, hseg⟩ := @fileRun_readBeU16 V s .segment (of + 4) (hin 4 2 (by decide) (by decide))
  rw [← h4] at hseg
  refine fileRun_bind htype (fileRun_bind hseg ?_)
  rw [h6, h24]
  obtain ⟨b, hb, hread⟩ := @fileRun_readDrop V s (of + 6) .jfif 4 (hin 6 4 (by decide) (by decide))
  rw [hadd 6 (by decide)] at hb
  refine fileRun_bind hread ?_
  by_cases hj : b.toList = ascii "JFIF"
  · rw [hb] at hj
    rw [show (6 : ℕ) = (6 : UInt32).toNat from rfl, if_pos hj] at hexif
    refine fileRun_ite_pos (hb.trans hj) (fileRun_startExif_noExif (hin 24 6 (by decide)
      (by decide)) ?_)
    rw [hadd 24 (by decide)]
    exact hexif
  · have hj' := hj
    rw [hb] at hj'
    rw [show (6 : ℕ) = (6 : UInt32).toNat from rfl, if_neg hj'] at hexif
    refine fileRun_ite_neg hj (fileRun_startExif_noExif (hin 6 6 (by decide) (by decide)) ?_)
    rw [hadd 6 (by decide)]
    exact hexif

theorem fileRun_startFile_noExif (hV : V.length = 1100) (hlt : imageStart V + 2 ≤ 100)
    (hno : NoExif V) : FileRun V startFile s (-1) s := by
  obtain ⟨magic, hmagic, hread⟩ := @fileRun_readDrop V s 0 .rafMagic 15 (by rw [hV]; decide)
  have htake : magic.toList = V.take 15 := hmagic
  refine fileRun_bind hread ?_
  by_cases hraf : magic.toList = ascii "FUJIFILMCCD-RAW"
  · have h84 : (0x54 : UInt32).toNat + 4 ≤ V.length := by rw [hV]; decide
    let headerLen := UInt32.ofNat (leNat ((V.drop 0x54).take 4).reverse)
    have hstart : imageStart V = headerLen.toNat := by
      rw [imageStart, if_pos (htake ▸ hraf)]
      refine (UInt32.toNat_ofNat_of_lt' (lt_of_lt_of_le (leNat_lt _) ?_)).symm
      simp [hV, UInt32.size]
    rw [hstart] at hlt
    refine fileRun_ite_pos hraf ?_
    refine fileRun_bind (fileRun_readMap (fun l => UInt32.ofNat (leNat l.reverse)) h84) ?_
    have hsize : headerLen.toNat ≤ V.length := by omega
    refine fileRun_bind (fileRun_ensureSize hsize) (fileRun_ite_neg (by simp) ?_)
    exact fileRun_startImage_noExif hV hlt hstart hno
  · have hstart : imageStart V = (0 : UInt32).toNat := if_neg (htake ▸ hraf)
    exact fileRun_ite_neg hraf (fileRun_startImage_noExif hV (by decide) hstart hno)

/-- The image of a short object starts in the first 100 bytes, however it is continued. -/
theorem Short.imageStart_le {file : List UInt8} (h : Short file) (hpre : file <+: V)
    (hV : V.length = 1100) : imageStart V + 2 ≤ 100 := by
  obtain ⟨hlen, hall⟩ := h
  -- the same object with zeros behind the first 100 bytes
  let W := V.take 100 ++ List.replicate 1000 0
  have hpreW : file <+: W :=
    (List.prefix_take_iff.mpr ⟨hpre, hlen.le⟩).trans (List.prefix_append _ _)
  have h100 : (V.take 100).length = 100 := by
    rw [List.length_take, hV]
    rfl
  have hstart : imageStart W = imageStart V := by
    have h15 : W.take 15 = V.take 15 := by
      rw [List.take_append_of_le_length (by rw [h100]; decide), List.take_take]
      rfl
    have h4 : (W.drop 0x54).take 4 = (V.drop 0x54).take 4 := by
      rw [List.drop_append_of_le_length (by rw [h100]; decide),
        List.take_append_of_le_length (by rw [List.length_drop, h100]; decide), List.drop_take,
        List.take_take]
      rfl
    rw [imageStart, imageStart, h15, h4]
  obtain ⟨hmarker, -⟩ := hall W hpreW (by rw [List.length_append, h100, List.length_replicate])
  rw [hstart] at hmarker
  have hbyte : W[imageStart V + 1]? = some 0xd8 := by
    have h1 := congrArg (fun l => l[1]?) hmarker
    simpa [List.getElem?_take, List.getElem?_drop] using h1
  by_contra hgt
  rw [List.getElem?_append_right (by omega)] at hbyte
  have hzero := List.eq_of_mem_replicate (List.mem_of_getElem? hbyte)
  exact absurd hzero (by decide)

end ShortObjects

/-! ### The two runs -/

section Agree

variable {file : List UInt8} {len : UInt32} {h : ExifHistory} {rc : Int} {s : ExifParser}

theorem myAdd_fills (file : List UInt8) : (GetMore.myAdd file).Fills file := by
  rintro c newLen _ hshow ⟨buf, rfl, -, hold, hnew⟩
  refine ⟨buf, rfl, fun i hi hif => ?_⟩
  by_cases hic : i < c.length.toNat
  · rw [hold i hi hic, hshow i hic hif]
  · exact hnew i hi (by omega) hif

theorem take_shows (file : List UInt8) (len : UInt32) :
    Buffer.Shows file ⟨file.take len.toNat, len⟩ := fun _ hi _ => List.getElem?_take_of_lt hi

theorem take_showsPadded {V : List UInt8} (hpre : file <+: V) (hlen : len.toNat ≤ file.length) :
    Buffer.ShowsPadded V ⟨file.take len.toNat, len⟩ := by
  intro i (hi : i < len.toNat)
  obtain ⟨tail, rfl⟩ := hpre
  have hif : i < file.length := by omega
  rw [List.getElem?_take_of_lt hi, List.getElem?_eq_getElem hif, List.getD_append _ _ _ _ hif,
    List.getD_eq_getElem _ _ hif]

/-- Where the object and the buffer have what is asked for, the run is forced. -/
theorem OnFile.endsWith {get : GetMore} {c : Buffer} (hrun : Exec exifStartRaw .zero h rc s)
    (hon : OnFile file h) (hin : InRange c.length h) (hprov : Provided file get c.length h)
    (hshow : c.Shows file) : EndsWith get c rc s.thumbOf s.thumbSize := by
  intro h' rc' s' c' hrun' hbuf
  obtain ⟨rfl, heq⟩ := runs_unique hrun hon hin hprov hshow hrun' hbuf
  obtain ⟨rfl, rfl⟩ := Prod.mk.inj heq
  exact ⟨hin, rfl, rfl, rfl⟩

theorem Fits.agrees (hfile : file.length < 2 ^ 32) (hfits : Fits file len) :
    Agrees file len := by
  obtain ⟨h, rc, s, hrun, hon, hin⟩ := hfits
  have hlen : (UInt32.ofNat file.length).toNat = file.length := UInt32.toNat_ofNat_of_lt' hfile
  refine ⟨rc, s.thumbOf, s.thumbSize, ?_, ?_⟩
  · exact hon.endsWith hrun (hon.inRange hlen) (hon.provided hlen) fun _ _ _ => rfl
  · exact hon.endsWith hrun hin (.inl (myAdd_fills file)) (take_shows file len)

/-- What `my_add` returns continues the object. -/
theorem myAdd_continues {newLen : UInt32} {buf : List UInt8} (hle : file.length ≤ newLen.toNat)
    (hadd : GetMore.myAdd file ⟨file.take len.toNat, len⟩ newLen (some buf)) : file <+: buf := by
  obtain ⟨_, hsome, hshow⟩ := myAdd_fills file _ newLen _ (take_shows file len) hadd
  obtain rfl := Option.some.inj hsome
  refine List.prefix_iff_getElem?.mpr fun i hi => ?_
  rw [hshow i (lt_of_lt_of_le hi hle) hi, List.getElem?_eq_getElem hi]

/-- A short object is refused, or continued to 1100 bytes. -/
theorem Short.agrees (hlen : len.toNat ≤ file.length) (hshort : Short file) :
    Agrees file len := by
  have h100 := hshort.1
  have hwhole : (UInt32.ofNat file.length).toNat = file.length :=
    UInt32.toNat_ofNat_of_lt' (show _ < 2 ^ 32 by omega)
  have hgrow {n : UInt32} (hn : n.toNat < 100) : (100 : UInt32) > n :=
    UInt32.lt_iff_toNat_lt.mpr hn
  refine ⟨-1, 0, 0, fun h rc s c' hrun hbuf => ?_, fun h rc s c' hrun hbuf => ?_⟩
  · obtain ⟨ok, h₂, rfl, hrun₂⟩ := exec_exifStartRaw.mp hrun
    rcases hbuf with _ | _ | ⟨more, hmore, hbuf⟩
    obtain rfl : more = none := hmore (hgrow (by rw [hwhole]; exact h100))
    rw [ensureSize_null (hgrow (by rw [hwhole]; exact h100))] at hrun₂ ⊢
    cases hrun₂
    exact ⟨trivial, rfl, rfl, rfl⟩
  · obtain ⟨ok, h₂, rfl, hrun₂⟩ := exec_exifStartRaw.mp hrun
    rcases hbuf with _ | _ | ⟨more, hmore, hbuf⟩
    have hgt : (100 : UInt32) > len := hgrow (lt_of_le_of_lt hlen h100)
    have hadd := hmore hgt
    obtain ⟨buf, rfl, hbuflen, -⟩ := id hadd
    rw [ensureSize_more hgt] at hbuf hrun₂ ⊢
    have hV : buf.length = 1100 := hbuflen
    have hpre : file <+: buf := myAdd_continues (h100.le.trans (by decide)) hadd
    obtain ⟨h₀, hrun₀, hon⟩ := @fileRun_startFile_noExif buf .zero hV
      (hshort.imageStart_le hpre hV) (hshort.2 buf hpre hV)
    have hlenV : (100 + 1000 : UInt32).toNat = buf.length := hV.symm
    have hin := hon.inRange hlenV
    rw [if_neg (by simp)] at hrun₂
    obtain ⟨rfl, heq⟩ := runs_unique hrun₀ hon hin (hon.provided hlenV)
      (fun _ _ _ => rfl) hrun₂ hbuf
    obtain ⟨rfl, rfl⟩ := Prod.mk.inj heq
    refine ⟨?_, rfl, rfl, rfl⟩
    have hgrown : grown len 100 true = 100 + 1000 := if_pos ⟨rfl, hgt⟩
    have hrest : InRange (grown len 100 true) h₂ := by rwa [hgrown]
    exact hrest

/-- **When incremental parsing agrees**: when all that the reader asks of the object lies in the
object and in what has been fetched by then, or the object is too short to be looked at and has
no Exif header however it is continued. -/
theorem exif_agrees_iff (file : List UInt8) (len : UInt32) (hlen : len.toNat ≤ file.length)
    (hfile : file.length < 2 ^ 32) : Agrees file len ↔ Fits file len ∨ Short file := by
  refine ⟨fun hagree => ?_, fun h => h.elim (Fits.agrees hfile) (Short.agrees hlen)⟩
  obtain ⟨rc, thumbOf, thumbSize, hwhole, hpart⟩ := hagree
  have hlenF : (UInt32.ofNat file.length).toNat = file.length := UInt32.toNat_ofNat_of_lt' hfile
  -- a run on the answers of the file whose sizes are all granted lies inside it
  have hfits {h : ExifHistory} {rc' : Int} {s : ExifParser}
      (hrun : Exec exifStartRaw .zero h rc' s) (hans : ∀ e ∈ h, e.2 = fileOracle file e.1)
      (hg : granted h = true) : Fits file len := by
    obtain ⟨hin, -⟩ := hwhole h rc' s _ hrun (follows_fileOracle hlenF hans)
    have hon := onFile_of_granted hans hg hlenF hin
    obtain ⟨c', hbuf⟩ := hon.onPadded.follows (List.prefix_refl file)
      (take_showsPadded (List.prefix_refl file) hlen)
    exact ⟨h, rc', s, hrun, hon, (hpart h rc' s c' hrun hbuf).1⟩
  obtain ⟨h₁, rc₁, s₁, hrun₁, hans₁⟩ := total_exifStartRaw.exists_run (fileOracle file) .zero
  by_cases hg : granted h₁ = true
  · exact .inl (hfits hrun₁ hans₁ hg)
  -- the whole run has failed, and so do all others, although nothing is refused to them
  obtain ⟨-, hrc, -⟩ := hwhole h₁ rc₁ s₁ _ hrun₁ (follows_fileOracle hlenF hans₁)
  have hfail : rc = -1 := by
    rw [← hrc, (exifStartRaw_run (V := file) hrun₁).1 (by simpa using hg)]
  have hpadded (V : List UInt8) (hpre : file <+: V) : ∃ h s, Exec exifStartRaw .zero h (-1) s ∧
      OnPadded V h ∧ (∀ l ∈ sizes h, l = 100 ∨ l = paddedStart V) ∧
        NoHeader V (paddedStart V) := by
    obtain ⟨h, rc', s, hrun, hpad⟩ := total_exifStartRaw.exists_run (paddedOracle V) .zero
    obtain ⟨c', hbuf⟩ := OnPadded.follows hpre (take_showsPadded hpre hlen) hpad
    obtain ⟨-, hrc', -⟩ := hpart h rc' s c' hrun hbuf
    obtain rfl : rc' = -1 := hrc'.trans hfail
    exact ⟨h, s, hrun, hpad, (exifStartRaw_run hrun).2 (OnPadded.granted hpad) rfl hpad⟩
  by_cases h100 : file.length < 100
  · refine .inr ⟨h100, fun V hpre hV => ?_⟩
    obtain ⟨-, -, -, -, -, hno⟩ := hpadded V hpre
    exact hno.noExif hV
  · obtain ⟨h, s, hrun, hpad, hsizes, hno⟩ := hpadded file (List.prefix_refl file)
    have hstart : (paddedStart file).toNat < file.length := by
      have hff := (padded_eq_iff (m := [0xff]) (by decide)).mp hno.1
      have hlt := congrArg List.length hff
      simp at hlt
      omega
    refine .inl (hfits hrun (hpad.onAnswers fun l hl => ?_) hpad.granted)
    rcases hsizes l hl with rfl | rfl
    · exact not_lt.mp h100
    · exact hstart.le

end Agree

/-! ### Two files -/

/-- A small file, of which 10 bytes have been fetched. -/
theorem smallJpeg_agrees : Agrees smallJpegFile 10 := by
  refine (exif_agrees_iff smallJpegFile 10 (by decide +kernel) (by decide +kernel)).mpr (.inl ?_)
  have htrace : ((exifStartRaw ExifParser.zero).trace (fileOracle smallJpegFile)).map
      (fun r => decide (granted r.1 = true ∧ InRange 100 r.1 ∧ InRange 10 r.1)) = some true := by
    decide +kernel
  obtain ⟨⟨h, rc, c⟩, htrace, hin⟩ := Option.map_eq_some_iff.mp htrace
  obtain ⟨hrun, hans⟩ := Prog.runs_of_trace htrace
  obtain ⟨hg, hwhole, hpart⟩ := of_decide_eq_true hin
  exact ⟨h, rc, c, hrun, onFile_of_granted hans hg (by decide +kernel) hwhole, hpart⟩

/-- The same file, cut off in front of its thumbnail. -/
def cutJpegFile : List UInt8 := smallJpegFile.take 60

/-- The cut file is refused as a whole; bit by bit, its thumbnail is found behind its end. -/
theorem exif_not_agrees : ¬ ∀ (file : List UInt8) (len : UInt32), len.toNat ≤ file.length →
    file.length < 2 ^ 32 → ∀ (h h' : ExifHistory) (rc rc' : Int) (s s' : ExifParser)
      (c c' : Buffer), Exec exifStartRaw .zero h rc s →
      Follows .null ⟨file, UInt32.ofNat file.length⟩ h c → Exec exifStartRaw .zero h' rc' s' →
      Follows (.myAdd file) ⟨file.take len.toNat, len⟩ h' c' →
      rc = rc' ∧ s.thumbOf = s'.thumbOf ∧ s.thumbSize = s'.thumbSize := by
  intro hall
  have hwhole : ((exifStartRaw ExifParser.zero).trace (fileOracle cutJpegFile)).map
      (fun r => r.2.1) = some (-1) := by
    decide +kernel
  have hpart : ((exifStartRaw ExifParser.zero).trace (paddedOracle cutJpegFile)).map
      (fun r => r.2.1) = some 0 := by
    decide +kernel
  obtain ⟨⟨h, rc, s⟩, htrace, rfl⟩ := Option.map_eq_some_iff.mp hwhole
  obtain ⟨⟨h', rc', s'⟩, htrace', rfl⟩ := Option.map_eq_some_iff.mp hpart
  obtain ⟨hrun, hans⟩ := Prog.runs_of_trace htrace
  obtain ⟨hrun', hpad⟩ := Prog.runs_of_trace htrace'
  have hlen : (0 : UInt32).toNat ≤ cutJpegFile.length := Nat.zero_le _
  obtain ⟨c', hbuf'⟩ := OnPadded.follows (List.prefix_refl cutJpegFile)
    (take_showsPadded (List.prefix_refl _) hlen) hpad
  have hbuf := @follows_fileOracle cutJpegFile (UInt32.ofNat cutJpegFile.length)
    (by decide +kernel) h hans
  obtain ⟨hrc, -⟩ := hall cutJpegFile 0 hlen (by decide +kernel) h h' _ _ s s' _ c' hrun hbuf
    hrun' hbuf'
  exact absurd hrc (by decide)

end Exif

end Fuji
