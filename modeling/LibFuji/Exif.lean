/-
The Exif reader (`exif.c`).

The reader is a program over two operations: it makes sure of a size (`ensure_size`), and it
reads a field of the file at an offset.  The buffer it works on answers them: what
`ensure_size` does to the buffer is `Buffer.ensureSize`, and `Follows` relates a run to the
buffers it goes through, for any behaviour of the callback `get_more`.

`exifStartRaw_inRange_iff` says when all reads stay below the length of the buffer: of the
reads, only those of an entry count, of the pointer to the next directory, of the headers
behind the first 100 bytes, and of entries near the end of the address range are unchecked,
and a run is in range just if these are.
-/
import LibFuji.ByteCodec
import LibFuji.Interaction

namespace Fuji

open ByteCodec Interaction

/-- `struct ExifParser`, less the buffer and the callback. -/
structure ExifParser where
  exifStart : UInt32
  subifd : UInt32
  thumbOf : UInt32
  thumbSize : UInt32
  deriving DecidableEq, Repr

/-- `memset(c, 0, sizeof(*c))`. -/
def ExifParser.zero : ExifParser := ⟨0, 0, 0, 0⟩

/-- The fields of a file that the reader looks at. -/
inductive ExifField
  | rafMagic | rafHeaderLen | marker | segment | jfif | exif | tiff | count | entry | next
  deriving DecidableEq, Repr

/-- The operations of the reader. -/
inductive ExifOp
  | ensureSize (length : UInt32)
  | read (field : ExifField) (of : UInt32) (n : ℕ)

/-- The answers: whether the size is there, and the bytes read. -/
@[reducible] def ExifOp.Ret : ExifOp → Type
  | ensureSize _ => Bool
  | read _ _ n => Vector UInt8 n

/-- Programs of the reader. -/
abbrev ExifM : Type → Type := StateT ExifParser (Prog ExifOp ExifOp.Ret)

/-- Histories of the reader. -/
abbrev ExifHistory : Type := List (Event ExifOp ExifOp.Ret)

namespace Exif

/-! ### The code -/

/-- The bytes of a text. -/
def ascii (s : String) : List UInt8 := s.toList.map fun c => UInt8.ofNat c.toNat

/-- `ensure_size`, as the reader calls it; the return code 0 is `true`. -/
def ensureSize (length : UInt32) : ExifM Bool := call (ExifOp.ensureSize length)

theorem exec_ensureSize {s : ExifParser} {length : UInt32} (ok : Bool) :
    Exec (ensureSize length) s [⟨.ensureSize length, ok⟩] ok s :=
  @exec_call ExifOp ExifOp.Ret ExifParser s (.ensureSize length) ok

/-- Bytes of the buffer. -/
def readBytes (field : ExifField) (of : UInt32) (n : ℕ) : ExifM (Vector UInt8 n) :=
  call (ExifOp.read field of n)

theorem exec_readBytes {s : ExifParser} {field : ExifField} {of : UInt32} {n : ℕ}
    (b : Vector UInt8 n) : Exec (readBytes field of n) s [⟨.read field of n, b⟩] b s :=
  @exec_call ExifOp ExifOp.Ret ExifParser s (.read field of n) b

/-- `read_u16`. -/
def readU16 (field : ExifField) (of : UInt32) : ExifM UInt16 := do
  let b ← readBytes field of 2
  return UInt16.ofNat (leNat b.toList)

/-- `read_u32`. -/
def readU32 (field : ExifField) (of : UInt32) : ExifM UInt32 := do
  let b ← readBytes field of 4
  return UInt32.ofNat (leNat b.toList)

/-- `read_be_u16`. -/
def readBeU16 (field : ExifField) (of : UInt32) : ExifM UInt16 := do
  let b ← readBytes field of 2
  return UInt16.ofNat (leNat b.toList.reverse)

/-- `read_be_u32`. -/
def readBeU32 (field : ExifField) (of : UInt32) : ExifM UInt32 := do
  let b ← readBytes field of 4
  return UInt32.ofNat (leNat b.toList.reverse)

section Bind

variable {α : Type} {s s' : ExifParser} {h : ExifHistory} {a : α} {field : ExifField} {of : UInt32}

theorem exec_ensureSize_bind {length : UInt32} {f : Bool → ExifM α} :
    Exec (ensureSize length >>= f) s h a s' ↔
      ∃ ok h', h = ⟨.ensureSize length, ok⟩ :: h' ∧ Exec (f ok) s h' a s' := exec_call_bind

theorem exec_readBytes_bind {n : ℕ} {f : Vector UInt8 n → ExifM α} :
    Exec (readBytes field of n >>= f) s h a s' ↔
      ∃ b h', h = ⟨.read field of n, b⟩ :: h' ∧ Exec (f b) s h' a s' := exec_call_bind

theorem exec_readU16_bind {f : UInt16 → ExifM α} :
    Exec (readU16 field of >>= f) s h a s' ↔ ∃ b h', h = ⟨.read field of 2, b⟩ :: h' ∧
      Exec (f (UInt16.ofNat (leNat b.toList))) s h' a s' :=
  exec_readBytes_bind (f := fun b => f (UInt16.ofNat (leNat b.toList)))

theorem exec_readU32_bind {f : UInt32 → ExifM α} :
    Exec (readU32 field of >>= f) s h a s' ↔ ∃ b h', h = ⟨.read field of 4, b⟩ :: h' ∧
      Exec (f (UInt32.ofNat (leNat b.toList))) s h' a s' :=
  exec_readBytes_bind (f := fun b => f (UInt32.ofNat (leNat b.toList)))

theorem exec_readBeU16_bind {f : UInt16 → ExifM α} :
    Exec (readBeU16 field of >>= f) s h a s' ↔ ∃ b h', h = ⟨.read field of 2, b⟩ :: h' ∧
      Exec (f (UInt16.ofNat (leNat b.toList.reverse))) s h' a s' :=
  exec_readBytes_bind (f := fun b => f (UInt16.ofNat (leNat b.toList.reverse)))

theorem exec_readBeU32_bind {f : UInt32 → ExifM α} :
    Exec (readBeU32 field of >>= f) s h a s' ↔ ∃ b h', h = ⟨.read field of 4, b⟩ :: h' ∧
      Exec (f (UInt32.ofNat (leNat b.toList.reverse))) s h' a s' :=
  exec_readBytes_bind (f := fun b => f (UInt32.ofNat (leNat b.toList.reverse)))

end Bind

/-- What the `switch` of `exif_parse_ifd` does for an entry. -/
def onTag (tag : UInt16) (value : UInt32) (c : ExifParser) : ExifParser :=
  if tag = 0x0201 then { c with thumbOf := c.exifStart + value }
  else if tag = 0x0202 then { c with thumbSize := value }
  else if tag = 0x8769 then { c with subifd := value }
  else c

/-- The loop of `exif_parse_ifd`, `n` times more; it moves the offset. -/
def parseEntries : ℕ → UInt32 → ExifM (Int × UInt32)
  | 0, of => return (0, of)
  | n + 1, of => do
    let ok ← ensureSize (of + 12)
    if ok = false then return (-1, of)
    else
      let tag ← readU16 .entry of
      let _format ← readU16 .entry (of + 2)
      let _components ← readU32 .entry (of + 4)
      let value ← readU32 .entry (of + 8)
      modify (onTag tag value)
      parseEntries n (of + 12)

/-- The end of `exif_parse_ifd`: the thumbnail found so far has to be there. -/
def ensureThumb : ExifM Int := do
  let c ← get
  if c.thumbOf ≠ 0 ∧ c.thumbSize ≠ 0 then
    let ok ← ensureSize (c.thumbOf + c.thumbSize)
    return if ok = false then -1 else 0
  else return 0

/-- `exif_parse_ifd`. -/
def exifParseIfd (of : UInt32) : ExifM (Int × UInt32) := do
  let entries ← readU16 .count of
  let r ← parseEntries entries.toNat (of + 2)
  if r.1 < 0 then return r
  else
    let rc ← ensureThumb
    return (rc, r.2)

/-- `exif_start_entries` for a directory other than the first, if there is one. -/
def parseOther (pointer : UInt32) : ExifM Int := do
  if pointer ≠ 0 then
    let c ← get
    let ok ← ensureSize (c.exifStart + pointer)
    if ok = false then return -1
    else
      let r ← exifParseIfd (c.exifStart + pointer)
      return r.1
  else return 0

/-- `exif_start_entries`. -/
def exifStartEntries (of : UInt32) : ExifM Int := do
  let _order ← readBeU16 .tiff of
  let _version ← readU16 .tiff (of + 2)
  let offset ← readU32 .tiff (of + 4)
  let r ← exifParseIfd (of + 8 + (offset - 8))
  if r.1 < 0 then return r.1
  else
    let ifd1 ← readU32 .next r.2
    let rc ← parseOther ifd1
    if rc < 0 then return rc
    else
      let c ← get
      parseOther c.subifd

/-- `exif_start` from the Exif header on. -/
def startExif (of : UInt32) : ExifM Int := do
  let b ← readBytes .exif of 6
  if b.toList = ascii "Exif" ++ [0, 0] then
    modify fun c => { c with exifStart := of + 6 }
    exifStartEntries (of + 6)
  else return -1

/-- `exif_start`. -/
def exifStart (of : UInt32) : ExifM Int := do
  let _type ← readBeU16 .segment of
  let _len ← readBeU16 .segment (of + 2)
  let b ← readBytes .jfif (of + 4) 4
  if b.toList = ascii "JFIF" then startExif (of + 4 + 0x12) else startExif (of + 4)

/-- `exif_start_raw` from the start of the image on. -/
def startImage (of : UInt32) : ExifM Int := do
  let b0 ← readBytes .marker of 1
  if b0.toList = [0xff] then
    let b1 ← readBytes .marker (of + 1) 1
    if b1.toList = [0xd8] then exifStart (of + 2) else return 0
  else return 0

/-- `exif_start_raw` from the RAF header on. -/
def startFile : ExifM Int := do
  let magic ← readBytes .rafMagic 0 15
  if magic.toList = ascii "FUJIFILMCCD-RAW" then
    let headerLen ← readBeU32 .rafHeaderLen 0x54
    let ok ← ensureSize headerLen
    if ok = false then return -1 else startImage headerLen
  else startImage 0

/-- `exif_start_raw`. -/
def exifStartRaw : ExifM Int := do
  set ExifParser.zero
  let ok ← ensureSize 100
  if ok = false then return -1 else startFile

/-- The reader starts all over, with its first size. -/
theorem exec_exifStartRaw {s s' : ExifParser} {h : ExifHistory} {rc : Int} :
    Exec exifStartRaw s h rc s' ↔ ∃ ok h', h = ⟨.ensureSize 100, ok⟩ :: h' ∧
      Exec (if ok = false then pure (-1) else startFile) .zero h' rc s' :=
  exec_ensureSize_bind (f := fun ok => if ok = false then pure (-1) else startFile)

/-! ### Buffers -/

/-- The buffer of the reader: what is in memory, and the length it goes by. -/
structure Buffer where
  bytes : List UInt8
  length : UInt32

/-- `ensure_size`, where `more` is what `get_more` returns for the new length: nothing when
it is NULL or returns NULL. -/
def Buffer.ensureSize (c : Buffer) (length : UInt32) (more : Option (List UInt8)) :
    Bool × Buffer :=
  if length > c.length then
    match more with
    | none => (false, c)
    | some buf => (true, ⟨buf, length + 1000⟩)
  else (true, c)

theorem ensureSize_fits {c : Buffer} {length : UInt32} (h : ¬ length > c.length)
    (more : Option (List UInt8)) : c.ensureSize length more = (true, c) := if_neg h

theorem ensureSize_null {c : Buffer} {length : UInt32} (h : length > c.length) :
    c.ensureSize length none = (false, c) := if_pos h

theorem ensureSize_more {c : Buffer} {length : UInt32} (h : length > c.length)
    (buf : List UInt8) : c.ensureSize length (some buf) = (true, ⟨buf, length + 1000⟩) := if_pos h

/-- What a callback may return for a buffer and a new length. -/
abbrev GetMore : Type := Buffer → UInt32 → Option (List UInt8) → Prop

/-- No callback. -/
def GetMore.null : GetMore := fun _ _ more => more = none

/-- A callback returns NULL or a buffer of at least the new length. -/
def GetMore.Lawful (get : GetMore) : Prop :=
  ∀ c newLen buf, get c newLen (some buf) → newLen.toNat ≤ buf.length

/-- The bytes read are those of the buffer, as far as it goes. -/
def Buffer.Holds (c : Buffer) (of : UInt32) {n : ℕ} (b : Vector UInt8 n) : Prop :=
  ∀ i (hi : i < n), of.toNat + i < c.length.toNat → c.bytes[of.toNat + i]? = some b[i]

/-- A run of the reader on a buffer, which ends with another buffer. -/
inductive Follows (get : GetMore) : Buffer → ExifHistory → Buffer → Prop
  | nil (c : Buffer) : Follows get c [] c
  | read {c c' : Buffer} {field : ExifField} {of : UInt32} {n : ℕ} {b : Vector UInt8 n}
      {h : ExifHistory} (hb : c.Holds of b) (h' : Follows get c h c') :
      Follows get c (⟨.read field of n, b⟩ :: h) c'
  | ensureSize {c c' : Buffer} {length : UInt32} {h : ExifHistory} (more : Option (List UInt8))
      (hmore : length > c.length → get c (length + 1000) more)
      (h' : Follows get (c.ensureSize length more).2 h c') :
      Follows get c (⟨.ensureSize length, (c.ensureSize length more).1⟩ :: h) c'

/-- The length after a call of `ensure_size` that returned `ok`. -/
def grown (len length : UInt32) (ok : Bool) : UInt32 :=
  if ok = true ∧ len < length then length + 1000 else len

/-- Every read of a history satisfies `P`, given the length of the buffer at its time. -/
def AllReads (P : UInt32 → ExifField → UInt32 → ℕ → Prop) : UInt32 → ExifHistory → Prop
  | _, [] => True
  | len, ⟨.ensureSize length, ok⟩ :: h => AllReads P (grown len length ok) h
  | len, ⟨.read field of n, _⟩ :: h => P len field of n ∧ AllReads P len h

instance AllReads.decidable {P : UInt32 → ExifField → UInt32 → ℕ → Prop}
    [∀ len field of n, Decidable (P len field of n)] :
    (len : UInt32) → (h : ExifHistory) → Decidable (AllReads P len h)
  | _, [] => .isTrue trivial
  | len, ⟨.ensureSize length, ok⟩ :: h => AllReads.decidable (grown len length ok) h
  | len, ⟨.read field of n, _⟩ :: h =>
    have := AllReads.decidable (P := P) len h
    inferInstanceAs (Decidable (P len field of n ∧ AllReads P len h))

/-- The read lies below the length. -/
def Below (len : UInt32) (_field : ExifField) (of : UInt32) (n : ℕ) : Prop :=
  of.toNat + n ≤ len.toNat

/-- All reads lie below the length of the buffer. -/
def InRange : UInt32 → ExifHistory → Prop := AllReads Below

instance (len : UInt32) (h : ExifHistory) : Decidable (InRange len h) :=
  AllReads.decidable (P := fun len _ of n => of.toNat + n ≤ len.toNat) len h

/-- The reads in front of which no size is made sure of: those of a count and of the pointer
to the next directory, of an entry whose end and its 1000 spare bytes do not fit 32 bits, and
of the headers, unless they lie in the first 100 bytes. -/
def Unchecked (of : UInt32) (n : ℕ) : ExifField → Prop
  | .rafMagic | .rafHeaderLen => False
  | .count | .next => True
  | .entry => 2 ^ 32 ≤ of.toNat + 1012
  | .marker | .segment | .jfif | .exif | .tiff => 100 < of.toNat + n

/-- All unchecked reads lie below the length of the buffer. -/
def UncheckedInRange : UInt32 → ExifHistory → Prop :=
  AllReads fun len field of n => Unchecked of n field → Below len field of n

/-! ### What is checked -/

/-- The length of the buffer at the end of a history. -/
def lengthAfter : UInt32 → ExifHistory → UInt32
  | len, [] => len
  | len, ⟨.ensureSize length, ok⟩ :: h => lengthAfter (grown len length ok) h
  | len, ⟨.read _ _ _, _⟩ :: h => lengthAfter len h

theorem allReads_append {P : UInt32 → ExifField → UInt32 → ℕ → Prop} {len : UInt32}
    {h h' : ExifHistory} :
    AllReads P len (h ++ h') ↔ AllReads P len h ∧ AllReads P (lengthAfter len h) h' := by
  induction h generalizing len with
  | nil => simp [AllReads, lengthAfter]
  | cons e h ih =>
    rcases e with ⟨_ | _, r⟩
    · exact ih
    · rw [List.cons_append, AllReads, AllReads, ih, lengthAfter, and_assoc]

theorem lengthAfter_append {len : UInt32} {h h' : ExifHistory} :
    lengthAfter len (h ++ h') = lengthAfter (lengthAfter len h) h' := by
  induction h generalizing len with
  | nil => rfl
  | cons e h ih => rcases e with ⟨_ | _, r⟩ <;> exact ih

/-- In a run of `m` from a length as `pre` says, the unchecked reads are the only ones that can
be out of range, and if they are not the length ends as `post` says. -/
def Checked {α : Type} (pre : UInt32 → Prop) (m : ExifM α) (post : α → UInt32 → Prop) : Prop :=
  ∀ s len h a s', Exec m s h a s' → pre len → UncheckedInRange len h →
    InRange len h ∧ post a (lengthAfter len h)

section Checked

variable {α β : Type} {m : ExifM α} {f : α → ExifM β} {pre : UInt32 → Prop}
  {mid : α → UInt32 → Prop} {post : β → UInt32 → Prop}

theorem checked_pure {a : β} (h : ∀ len, pre len → post a len) :
    Checked pre (pure a) post := by
  rintro s len _ _ _ ⟨⟩ hpre -
  exact ⟨trivial, h len hpre⟩

theorem checked_bind (hm : Checked pre m mid) (hf : ∀ a, Checked (mid a) (f a) post) :
    Checked pre (m >>= f) post := by
  intro s len h b s' hrun hpre hun
  obtain ⟨h₁, a, s₁, h₂, rfl, hrun₁, hrun₂⟩ := exec_of_bind hrun
  obtain ⟨hun₁, hun₂⟩ := allReads_append.mp hun
  obtain ⟨hin₁, hmid⟩ := hm s len h₁ a s₁ hrun₁ hpre hun₁
  obtain ⟨hin₂, hpost⟩ := hf a s₁ _ h₂ b s' hrun₂ hmid hun₂
  exact ⟨allReads_append.mpr ⟨hin₁, hin₂⟩, by rwa [lengthAfter_append]⟩

theorem checked_ite {c : Prop} [Decidable c] {m m' : ExifM β} (hm : c → Checked pre m post)
    (hm' : ¬ c → Checked pre m' post) : Checked pre (if c then m else m') post := by
  by_cases hc : c
  · rw [if_pos hc]
    exact hm hc
  · rw [if_neg hc]
    exact hm' hc

theorem Checked.mono {m : ExifM β} {pre' : UInt32 → Prop} {post' : β → UInt32 → Prop}
    (hm : Checked pre m post) (hpre : ∀ len, pre' len → pre len)
    (hpost : ∀ a len, post a len → post' a len) : Checked pre' m post' := by
  intro s len h a s' hrun hp hun
  obtain ⟨hin, hq⟩ := hm s len h a s' hrun (hpre len hp) hun
  exact ⟨hin, hpost a _ hq⟩

/-- Programs that neither read nor make sure of a size. -/
theorem checked_of_silent {m : ExifM α} (hm : ∀ s h a s', Exec m s h a s' → h = []) :
    Checked pre m fun _ => pre := by
  intro s len h a s' hrun hpre _
  obtain rfl := hm s h a s' hrun
  exact ⟨trivial, hpre⟩

theorem checked_get : Checked pre (get : ExifM ExifParser) fun _ => pre :=
  checked_of_silent fun _ _ _ _ hrun => by
    cases hrun
    rfl

theorem checked_modify (g : ExifParser → ExifParser) :
    Checked pre (modify g : ExifM PUnit) fun _ => pre :=
  checked_of_silent fun _ _ _ _ hrun => by
    cases hrun
    rfl

/-- A read is in range where it is unchecked and where what is known says so. -/
theorem checked_readBytes {field : ExifField} {of : UInt32} {n : ℕ}
    (h : ∀ len, pre len → ¬ Unchecked of n field → Below len field of n) :
    Checked pre (readBytes field of n) fun _ len => pre len ∧ Below len field of n := by
  rintro s len _ _ _ (_ | ⟨b, ⟨⟩⟩) hpre ⟨hun, -⟩
  have hin : Below len field of n := by
    by_cases hu : Unchecked of n field
    · exact hun hu
    · exact h len hpre hu
  exact ⟨⟨hin, trivial⟩, hpre, hin⟩

/-- After a call that returned 0 the size was there, or it was asked for with 1000 spare bytes. -/
def Ensured (length : UInt32) (len : UInt32) : Prop := length ≤ len ∨ len = length + 1000

theorem checked_ensureSize (length : UInt32) :
    Checked pre (ensureSize length) fun ok len =>
      ok = true → Ensured length len ∧ (pre len ∨ len = length + 1000) := by
  intro s len h ok s' hrun hpre _
  rcases hrun with _ | ⟨_, ⟨⟩⟩
  refine ⟨trivial, fun hok => ?_⟩
  have hlen : lengthAfter len [⟨ExifOp.ensureSize length, ok⟩] = grown len length ok := rfl
  rw [hlen, grown]
  split
  · exact ⟨.inr rfl, .inr rfl⟩
  · rename_i h
    have hle : length ≤ len := by
      rw [hok] at h
      simpa using h
    exact ⟨.inl hle, .inl hpre⟩

/-- A value made of bytes that are read. -/
theorem checked_readMap {field : ExifField} {of : UInt32} {n : ℕ} (g : Vector UInt8 n → α)
    (h : ∀ len, pre len → ¬ Unchecked of n field → Below len field of n) :
    Checked pre (readBytes field of n >>= fun b => pure (g b)) fun _ len =>
      pre len ∧ Below len field of n :=
  checked_bind (checked_readBytes h) fun _ => checked_pure fun _ h => h

end Checked

/-! ### The functions of the reader -/

theorem toNat_add_of_lt {a b : UInt32} (h : a.toNat + b.toNat < 2 ^ 32) :
    (a + b).toNat = a.toNat + b.toNat := by
  rw [UInt32.toNat_add, Nat.mod_eq_of_lt h]

/-- Away from the end of the address range an entry that was made sure of is there. -/
theorem Ensured.entry_le {of len : UInt32} (h : Ensured (of + 12) len)
    (hof : of.toNat + 1012 < 2 ^ 32) : of.toNat + 12 ≤ len.toNat := by
  have h12 : (of + 12).toNat = of.toNat + 12 := toNat_add_of_lt (by simp; omega)
  rcases h with h | h
  · rw [UInt32.le_iff_toNat_le, h12] at h
    exact h
  · have h1000 : (of + 12 + 1000).toNat = of.toNat + 12 + 1000 := by
      rw [toNat_add_of_lt (by rw [h12]; simp; omega), h12]
      rfl
    rw [h, h1000]
    omega

/-- The part of an entry read so far is there. -/
def EntryRead (of : UInt32) (k : ℕ) (len : UInt32) : Prop :=
  Ensured (of + 12) len ∧ of.toNat + k ≤ len.toNat

theorem checked_entryFirst (of : UInt32) :
    Checked (Ensured (of + 12)) (readU16 .entry of) fun _ => EntryRead of 2 := by
  refine (checked_readMap _ fun len h hu => ?_).mono (fun _ h => h) fun _ _ h => h
  have := h.entry_le (not_le.mp hu)
  rw [Below]
  omega

theorem checked_entryNext {of k : UInt32} {n : ℕ} {α : Type} (g : Vector UInt8 n → α)
    (hk : k.toNat + n ≤ 12) :
    Checked (EntryRead of k.toNat) (readBytes .entry (of + k) n >>= fun b => pure (g b))
      fun _ => EntryRead of (k.toNat + n) := by
  have hadd {len : UInt32} (h : EntryRead of k.toNat len) :
      (of + k).toNat = of.toNat + k.toNat :=
    toNat_add_of_lt (lt_of_le_of_lt h.2 len.toNat_lt)
  refine (checked_readMap g fun len h hu => ?_).mono (fun _ h => h) fun _ len h => ⟨h.1.1, ?_⟩
  · have hlt : of.toNat + k.toNat + 1012 < 2 ^ 32 := by
      rw [Unchecked, hadd h] at hu
      omega
    have := h.1.entry_le (by omega)
    rw [Below, hadd h]
    omega
  · have := h.2
    rw [Below, hadd h.1] at this
    omega

theorem checked_parseEntries (n : ℕ) (of : UInt32) :
    Checked (fun _ => True) (parseEntries n of) fun _ _ => True := by
  induction n generalizing of with
  | zero => exact checked_pure fun _ _ => trivial
  | succ n ih =>
    refine checked_bind (checked_ensureSize (of + 12)) fun ok => ?_
    refine checked_ite (fun _ => checked_pure fun _ _ => trivial) fun hok => ?_
    have hpre : ∀ len : UInt32, (ok = true → Ensured (of + 12) len ∧
        (True ∨ len = of + 12 + 1000)) → Ensured (of + 12) len :=
      fun len h => (h (by simpa using hok)).1
    refine checked_bind ((checked_entryFirst of).mono hpre fun _ _ h => h) fun tag => ?_
    refine checked_bind (checked_entryNext (k := 2) _ (by decide)) fun _ => ?_
    refine checked_bind (checked_entryNext (k := 4) _ (by decide)) fun _ => ?_
    refine checked_bind (checked_entryNext (k := 8) _ (by decide)) fun value => ?_
    refine checked_bind (checked_modify (onTag tag value)) fun _ => ?_
    exact (ih (of + 12)).mono (fun _ _ => trivial) fun _ _ h => h

theorem checked_ensureThumb : Checked (fun _ => True) ensureThumb fun _ _ => True := by
  refine checked_bind checked_get fun c => ?_
  refine checked_ite (fun _ => ?_) fun _ => checked_pure fun _ h => h
  exact checked_bind (checked_ensureSize _) fun ok => checked_pure fun _ _ => trivial

theorem checked_exifParseIfd (of : UInt32) :
    Checked (fun _ => True) (exifParseIfd of) fun _ _ => True := by
  refine checked_bind (checked_readMap _ fun len _ hu => absurd trivial hu) fun entries => ?_
  refine checked_bind ((checked_parseEntries _ _).mono (fun _ _ => trivial) fun _ _ h => h)
    fun r => ?_
  refine checked_ite (fun _ => checked_pure fun _ h => h) fun _ => ?_
  exact checked_bind checked_ensureThumb fun rc => checked_pure fun _ h => h

theorem checked_parseOther (pointer : UInt32) :
    Checked (fun _ => True) (parseOther pointer) fun _ _ => True := by
  refine checked_ite (fun _ => ?_) fun _ => checked_pure fun _ h => h
  refine checked_bind checked_get fun c => checked_bind (checked_ensureSize _) fun ok => ?_
  refine checked_ite (fun _ => checked_pure fun _ _ => trivial) fun _ => ?_
  refine checked_bind ((checked_exifParseIfd _).mono (fun _ _ => trivial) fun _ _ h => h) fun r => ?_
  exact checked_pure fun _ h => h

/-- The headers are read from a buffer of at least 100 bytes. -/
theorem checked_header {field : ExifField} {of : UInt32} {n : ℕ} {α : Type}
    (g : Vector UInt8 n → α) (hfield : Unchecked of n field ↔ 100 < of.toNat + n) :
    Checked (100 ≤ ·) (readBytes field of n >>= fun b => pure (g b)) fun _ => (100 ≤ ·) := by
  refine (checked_readMap g fun len h hu => ?_).mono (fun _ h => h) fun _ _ h => h.1
  rw [hfield, not_lt] at hu
  exact hu.trans (UInt32.le_iff_toNat_le.mp h)

theorem checked_exifStartEntries (of : UInt32) :
    Checked (100 ≤ ·) (exifStartEntries of) fun _ _ => True := by
  refine checked_bind (checked_header _ Iff.rfl) fun _ => ?_
  refine checked_bind (checked_header _ Iff.rfl) fun _ => ?_
  refine checked_bind (checked_header _ Iff.rfl) fun offset => ?_
  refine checked_bind ((checked_exifParseIfd _).mono (fun _ _ => trivial) fun _ _ h => h) fun r => ?_
  refine checked_ite (fun _ => checked_pure fun _ h => h) fun _ => ?_
  refine checked_bind (checked_readMap _ fun len _ hu => absurd trivial hu) fun ifd1 => ?_
  refine checked_bind ((checked_parseOther ifd1).mono (fun _ _ => trivial) fun _ _ h => h) fun rc => ?_
  refine checked_ite (fun _ => checked_pure fun _ h => h) fun _ => ?_
  exact checked_bind checked_get fun c => checked_parseOther c.subifd

theorem checked_exifStart (of : UInt32) :
    Checked (100 ≤ ·) (exifStart of) fun _ _ => True := by
  have hexif (of : UInt32) : Checked (100 ≤ ·) (startExif of) fun _ _ => True := by
    refine checked_bind (checked_header id Iff.rfl) fun b => ?_
    refine checked_ite (fun _ => ?_) fun _ => checked_pure fun _ _ => trivial
    exact checked_bind (checked_modify _) fun _ => checked_exifStartEntries _
  refine checked_bind (checked_header _ Iff.rfl) fun _ => ?_
  refine checked_bind (checked_header _ Iff.rfl) fun _ => ?_
  refine checked_bind (checked_header id Iff.rfl) fun b => ?_
  exact checked_ite (fun _ => hexif _) fun _ => hexif _

/-- The start of the image is there if 100 bytes are, or if it lies behind them. -/
theorem checked_marker (of : UInt32) : Checked (fun len => 100 ≤ len ∨ 100 ≤ of.toNat)
    (readBytes .marker of 1) fun _ => (100 ≤ ·) := by
  refine (checked_readBytes fun len h hu => ?_).mono (fun _ h => h) fun _ len h => ?_
  · have hof : of.toNat + 1 ≤ 100 := not_lt.mp hu
    have hlen := UInt32.le_iff_toNat_le.mp (h.resolve_right (by omega))
    exact hof.trans hlen
  · rcases h.1 with hlen | hof
    · exact hlen
    · have hin : of.toNat + 1 ≤ len.toNat := h.2
      exact UInt32.le_iff_toNat_le.mpr (by simp; omega)

theorem checked_startImage (of : UInt32) :
    Checked (fun len => 100 ≤ len ∨ 100 ≤ of.toNat) (startImage of) fun _ _ => True := by
  refine checked_bind (checked_marker of) fun b0 => ?_
  refine checked_ite (fun _ => ?_) fun _ => checked_pure fun _ _ => trivial
  refine checked_bind (checked_header id Iff.rfl) fun b1 => ?_
  exact checked_ite (fun _ => checked_exifStart _) fun _ => checked_pure fun _ _ => trivial

/-- 100 bytes are there after the first call of `ensure_size`. -/
theorem Ensured.hundred {len : UInt32} (h : Ensured 100 len) : 100 ≤ len := by
  rcases h with h | h
  · exact h
  · rw [h]
    decide

/-- Where the header of a RAF file ends behind the first 100 bytes, so does what was asked for,
unless the size has wrapped around. -/
theorem header_or_hundred {headerLen len : UInt32}
    (hlen : 100 ≤ len ∨ len = headerLen + 1000) : 100 ≤ len ∨ 100 ≤ headerLen.toNat := by
  rcases hlen with hlen | hlen
  · exact .inl hlen
  by_cases hof : 100 ≤ headerLen.toNat
  · exact .inr hof
  · left
    rw [hlen, UInt32.le_iff_toNat_le, toNat_add_of_lt (by simp; omega)]
    simp

theorem checked_startFile : Checked (100 ≤ ·) startFile fun _ _ => True := by
  have hchecked {field : ExifField} {of : UInt32} {n : ℕ} {α : Type} (g : Vector UInt8 n → α)
      (hof : of.toNat + n ≤ 100) : Checked (100 ≤ ·)
        (readBytes field of n >>= fun b => pure (g b)) fun _ => (100 ≤ ·) := by
    refine (checked_readMap g fun len h _ => ?_).mono (fun _ h => h) fun _ _ h => h.1
    exact hof.trans (UInt32.le_iff_toNat_le.mp h)
  refine checked_bind (hchecked id (by decide)) fun magic => ?_
  refine checked_ite (fun _ => ?_) fun _ => ?_
  · refine checked_bind (hchecked _ (by decide)) fun headerLen => ?_
    refine checked_bind (checked_ensureSize headerLen) fun ok' => ?_
    refine checked_ite (fun _ => checked_pure fun _ _ => trivial) fun hok' => ?_
    refine (checked_startImage headerLen).mono (fun len h => ?_) fun _ _ h => h
    exact header_or_hundred (h (by simpa using hok')).2
  · exact (checked_startImage 0).mono (fun _ h => .inl h) fun _ _ h => h

theorem checked_exifStartRaw : Checked (fun _ => True) exifStartRaw fun _ _ => True := by
  refine checked_bind (checked_modify fun _ => ExifParser.zero) fun _ => ?_
  refine checked_bind (checked_ensureSize 100) fun ok => ?_
  refine checked_ite (fun _ => checked_pure fun _ _ => trivial) fun hok => ?_
  exact checked_startFile.mono (fun len h => (h (by simpa using hok)).1.hundred) fun _ _ h => h

theorem AllReads.mono {P P' : UInt32 → ExifField → UInt32 → ℕ → Prop}
    (hP : ∀ len field of n, P len field of n → P' len field of n) {len : UInt32}
    {h : ExifHistory} (hall : AllReads P len h) : AllReads P' len h := by
  induction h generalizing len with
  | nil => trivial
  | cons e h ih =>
    rcases e with ⟨_ | _, r⟩
    · exact ih hall
    · exact ⟨hP _ _ _ _ hall.1, ih hall.2⟩

/-- The length in the buffer is the one a history goes by. -/
theorem ensureSize_length (c : Buffer) (length : UInt32) (more : Option (List UInt8)) :
    (c.ensureSize length more).2.length
      = grown c.length length (c.ensureSize length more).1 := by
  by_cases h : length > c.length
  · cases more with
    | none => simp [ensureSize_null h, grown]
    | some buf => simp [ensureSize_more h, grown, h]
  · simp [ensureSize_fits h, grown, h]

theorem Follows.length_eq {get : GetMore} {c c' : Buffer} {h : ExifHistory}
    (hbuf : Follows get c h c') : c'.length = lengthAfter c.length h := by
  induction hbuf with
  | nil c => rfl
  | read _ _ ih => exact ih
  | ensureSize more _ _ ih => rw [ih, ensureSize_length, lengthAfter]

/-- **When the reader stays in range**: whatever is in the buffer, however long it is, and
whatever the callback does, no byte behind the length is read just if none of the unchecked
reads is there. -/
theorem exifStartRaw_inRange_iff {s s' : ExifParser} {len : UInt32} {h : ExifHistory} {rc : Int}
    (hrun : Exec exifStartRaw s h rc s') : InRange len h ↔ UncheckedInRange len h := by
  refine ⟨fun hin => ?_, fun hun => (checked_exifStartRaw s len h rc s' hrun trivial hun).1⟩
  have hmono : ∀ len field of n, Below len field of n →
      Unchecked of n field → Below len field of n := fun _ _ _ _ hbelow _ => hbelow
  exact hin.mono hmono

/-! ### A file whose first directory lies behind its end -/

/-- What is in memory: the bytes of a file, and zeros behind it. -/
def fileOracle (file : List UInt8) : (op : ExifOp) → op.Ret
  | .ensureSize length => decide (length.toNat ≤ file.length)
  | .read _ of n => Vector.ofFn fun i : Fin n => file.getD (of.toNat + i) 0

/-- An Exif header of 100 bytes that puts the first directory at the offset 4096. -/
def danglingJpeg : List UInt8 :=
  [0xff, 0xd8, 0xff, 0xe1, 0x00, 0x60] ++ ascii "Exif" ++ [0, 0]
    ++ [0x49, 0x49, 0x2a, 0x00, 0x00, 0x10, 0x00, 0x00] ++ List.replicate 80 0

theorem holds_fileOracle {file : List UInt8} {len : UInt32} (hlen : len.toNat = file.length)
    {field : ExifField} {of : UInt32} {n : ℕ} :
    Buffer.Holds ⟨file, len⟩ of (fileOracle file (.read field of n) : Vector UInt8 n) := by
  intro i hi hin
  have hi' : of.toNat + i < file.length := by
    rw [← hlen]
    exact hin
  simp [fileOracle, List.getElem?_eq_getElem hi']

theorem follows_fileOracle {file : List UInt8} {len : UInt32} (hlen : len.toNat = file.length)
    {h : ExifHistory} (hans : ∀ e ∈ h, e.2 = fileOracle file e.1) :
    Follows .null ⟨file, len⟩ h ⟨file, len⟩ := by
  induction h with
  | nil => exact .nil _
  | cons e h ih =>
    obtain ⟨he, hh⟩ := List.forall_mem_cons.mp hans
    rcases e with ⟨length | ⟨field, of, n⟩, r⟩
    · have hc : Buffer.ensureSize ⟨file, len⟩ length none = (r, ⟨file, len⟩) := by
        have hle : r = decide (length.toNat ≤ file.length) := he
        rw [hle, ← hlen]
        by_cases hl : length > len
        · rw [ensureSize_null hl, decide_eq_false (not_le.mpr (UInt32.lt_iff_toNat_lt.mp hl))]
        · rw [ensureSize_fits hl, decide_eq_true (not_lt.mp (mt UInt32.lt_iff_toNat_lt.mpr hl))]
      have hbuf := @Follows.ensureSize .null ⟨file, len⟩ ⟨file, len⟩ length h none
        (fun _ => rfl) (by rw [hc]; exact ih hh)
      rwa [hc] at hbuf
    · have hr : r = fileOracle file (.read field of n) := he
      exact .read (hr ▸ holds_fileOracle hlen) (ih hh)

/-- The entry count of the directory is read behind the end of the file. -/
theorem danglingJpeg_run : ∃ h rc c, Exec exifStartRaw .zero h rc c ∧
    Follows .null ⟨danglingJpeg, 100⟩ h ⟨danglingJpeg, 100⟩ ∧ ¬ InRange 100 h := by
  have htrace : ((exifStartRaw ExifParser.zero).trace (fileOracle danglingJpeg)).map
      (fun r => decide (InRange 100 r.1)) = some false := by
    decide +kernel
  obtain ⟨⟨h, rc, c⟩, htrace, hout⟩ := Option.map_eq_some_iff.mp htrace
  obtain ⟨hrun, hans⟩ := Prog.runs_of_trace htrace
  exact ⟨h, rc, c, hrun, follows_fileOracle (by decide +kernel) hans, of_decide_eq_false hout⟩

theorem danglingJpeg_inRange_iff : ∃ h rc c, Exec exifStartRaw .zero h rc c ∧
    (InRange 100 h ↔ UncheckedInRange 100 h) := by
  obtain ⟨h, rc, c, hrun, -, -⟩ := danglingJpeg_run
  exact ⟨h, rc, c, hrun, exifStartRaw_inRange_iff hrun⟩

theorem exifStartRaw_not_inRange : ¬ ∀ (get : GetMore) (c c' : Buffer) (h : ExifHistory)
    (rc : Int) (s s' : ExifParser), get.Lawful → c.length.toNat ≤ c.bytes.length →
    Exec exifStartRaw s h rc s' → Follows get c h c' → InRange c.length h := by
  intro hall
  obtain ⟨h, rc, c, hrun, hbuf, hout⟩ := danglingJpeg_run
  have hlawful : GetMore.null.Lawful := by
    intro c newLen buf hnull
    cases hnull
  exact hout (hall .null _ _ h rc .zero c hlawful (by decide +kernel) hrun hbuf)

end Exif

end Fuji
