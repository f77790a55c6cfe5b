/-
The thumbnail of a well-formed Exif JPEG.

An `ExifJpeg` carries the layout of its bytes: the headers, the two directories with their
entries, the directory a tag may name, and the thumbnail, all of them inside the file.
`exifStartRaw_thumb` follows the reader through them: the state of the reader behind a
directory is the fold of `onTag` over its entries, and what the fold leaves in a member is
decided by the last entry of a tag (`applyEntries_thumbOf`, …).
-/
import LibFuji.Assignments
import LibFuji.ExifFile

namespace Fuji

open ByteCodec Interaction Assignments

namespace Exif

/-! ### Directories -/

/-- An entry of a directory. -/
structure IfdEntry where
  tag : UInt16
  format : UInt16
  components : UInt32
  value : UInt32

/-- The 12 bytes of an entry. -/
def IfdEntry.encode (e : IfdEntry) : List UInt8 :=
  leBytes 2 e.tag.toNat ++ leBytes 2 e.format.toNat ++ leBytes 4 e.components.toNat
    ++ leBytes 4 e.value.toNat

/-- The value of the last entry of a tag. -/
def lastTag (es : List IfdEntry) (tag : UInt16) : Option UInt32 :=
  last (es.map fun e => (e.tag, e.value)) tag

/-- The reader behind the entries of a directory. -/
def applyEntries (c : ExifParser) (es : List IfdEntry) : ExifParser :=
  es.foldl (fun c e => onTag e.tag e.value c) c

/-- The entries lie at an offset of a file. -/
def EntriesAt (file : List UInt8) (of : ℕ) (es : List IfdEntry) : Prop :=
  ∃ l r, l.length = of ∧ file = l ++ es.flatMap IfdEntry.encode ++ r

/-- A directory at an offset of a file: the number of its entries, and the entries. -/
structure Directory (file : List UInt8) (of : ℕ) (es : List IfdEntry) : Prop where
  length_lt : es.length < 2 ^ 16
  count : readLe file of 2 = some es.length
  entries : EntriesAt file (of + 2) es

section Entries

variable {file : List UInt8} {of : ℕ} {e : IfdEntry} {es : List IfdEntry} {c : ExifParser}

theorem lastTag_cons (tag : UInt16) : lastTag (e :: es) tag
    = (lastTag es tag).or (if e.tag = tag then some e.value else none) := rfl

theorem lastTag_eq_none {tag : UInt16} (h : ∀ e ∈ es, e.tag ≠ tag) : lastTag es tag = none := by
  refine last_eq_none_iff.mpr fun v hv => ?_
  obtain ⟨e, he, heq⟩ := List.mem_map.mp hv
  exact h e he (Prod.mk.inj heq).1

@[simp] theorem applyEntries_exifStart : (applyEntries c es).exifStart = c.exifStart := by
  induction es generalizing c with
  | nil => rfl
  | cons e es ih =>
    have htag : (onTag e.tag e.value c).exifStart = c.exifStart := by
      rw [onTag]
      split_ifs <;> rfl
    exact ih.trans htag

theorem applyEntries_thumbOf : (applyEntries c es).thumbOf
    = ((lastTag es 0x0201).map (c.exifStart + ·)).getD c.thumbOf := by
  induction es generalizing c with
  | nil => rfl
  | cons e es ih =>
    have hstep : (applyEntries c (e :: es)).thumbOf
        = (applyEntries (onTag e.tag e.value c) es).thumbOf := rfl
    rw [hstep, ih, lastTag_cons, onTag]
    by_cases h1 : e.tag = 0x0201
    · cases lastTag es 0x0201 <;> simp [h1]
    · cases lastTag es 0x0201 <;> simp only [h1, if_false] <;> split_ifs <;> rfl

theorem applyEntries_thumbSize : (applyEntries c es).thumbSize
    = (lastTag es 0x0202).getD c.thumbSize := by
  induction es generalizing c with
  | nil => rfl
  | cons e es ih =>
    have hstep : (applyEntries c (e :: es)).thumbSize
        = (applyEntries (onTag e.tag e.value c) es).thumbSize := rfl
    rw [hstep, ih, lastTag_cons, onTag]
    by_cases h1 : e.tag = 0x0202
    · cases lastTag es 0x0202 <;> simp [h1]
    · cases lastTag es 0x0202 <;> simp only [h1, if_false] <;> split_ifs <;> rfl

theorem applyEntries_subifd : (applyEntries c es).subifd
    = (lastTag es 0x8769).getD c.subifd := by
  induction es generalizing c with
  | nil => rfl
  | cons e es ih =>
    have hstep : (applyEntries c (e :: es)).subifd
        = (applyEntries (onTag e.tag e.value c) es).subifd := rfl
    rw [hstep, ih, lastTag_cons, onTag]
    by_cases h1 : e.tag = 0x8769
    · cases lastTag es 0x8769 <;> simp [h1]
    · cases lastTag es 0x8769 <;> simp only [h1, if_false] <;> split_ifs <;> rfl

theorem IfdEntry.encode_length (e : IfdEntry) : e.encode.length = 12 := by simp [IfdEntry.encode]

/-- Bytes in the middle of a file. -/
theorem readLe_part {l m r : List UInt8} {n : ℕ} (hfile : file = l ++ m ++ r)
    (hl : l.length = of) (hm : m.length = n) : readLe file of n = some (leNat m) := by
  subst hl hm
  rw [hfile, readLe_mid]

theorem EntriesAt.tail (h : EntriesAt file of (e :: es)) : EntriesAt file (of + 12) es := by
  obtain ⟨l, r, hl, hfile⟩ := h
  refine ⟨l ++ e.encode, r, by rw [List.length_append, hl, e.encode_length], ?_⟩
  rw [hfile, List.flatMap_cons, List.append_assoc l e.encode]

theorem EntriesAt.length_le (h : EntriesAt file of es) : of + 12 * es.length ≤ file.length := by
  obtain ⟨l, r, rfl, rfl⟩ := h
  have hlen : (es.flatMap IfdEntry.encode).length = 12 * es.length := by
    simp [List.length_flatMap, IfdEntry.encode_length, mul_comm]
  rw [List.length_append, List.length_append, hlen]
  omega

/-- The members of the first entry. -/
theorem EntriesAt.head (h : EntriesAt file of (e :: es)) :
    readLe file of 2 = some e.tag.toNat ∧ of + 8 ≤ file.length ∧
      readLe file (of + 8) 4 = some e.value.toNat := by
  have hle := h.length_le
  obtain ⟨l, r, rfl, hfile⟩ := h
  rw [List.length_cons] at hle
  have htag : e.tag.toNat < 256 ^ 2 := e.tag.toNat_lt
  have hvalue : e.value.toNat < 256 ^ 4 := e.value.toNat_lt
  have hfirst : file = l ++ leBytes 2 e.tag.toNat ++ (leBytes 2 e.format.toNat
      ++ leBytes 4 e.components.toNat ++ leBytes 4 e.value.toNat
      ++ es.flatMap IfdEntry.encode ++ r) := by
    rw [hfile]
    simp [IfdEntry.encode]
  have hlast : file = (l ++ leBytes 2 e.tag.toNat ++ leBytes 2 e.format.toNat
      ++ leBytes 4 e.components.toNat) ++ leBytes 4 e.value.toNat
      ++ (es.flatMap IfdEntry.encode ++ r) := by
    rw [hfile]
    simp [IfdEntry.encode]
  refine ⟨?_, by omega, ?_⟩
  · rw [readLe_part hfirst rfl (leBytes_length _ _), leNat_leBytes, Nat.mod_eq_of_lt htag]
  · rw [readLe_part hlast (by simp) (leBytes_length _ _), leNat_leBytes, Nat.mod_eq_of_lt hvalue]

end Entries

/-! ### Reading directories -/

section Read

variable {file : List UInt8} {es : List IfdEntry} {c : ExifParser} {of : UInt32}

theorem fileRun_parseEntries (hfile : file.length < 2 ^ 32) (h : EntriesAt file of.toNat es) :
    FileRun file (parseEntries es.length of) c (0, of + UInt32.ofNat (12 * es.length))
      (applyEntries c es) := by
  induction es generalizing of c with
  | nil =>
    have hof : of + UInt32.ofNat (12 * ([] : List IfdEntry).length) = of := by simp
    rw [hof]
    exact fileRun_pure _
  | cons e es ih =>
    have hle := h.length_le
    rw [List.length_cons] at hle
    -- no offset of the entry wraps around
    have hadd (k : UInt32) (hk : k.toNat ≤ 12) : (of + k).toNat = of.toNat + k.toNat :=
      toNat_add_of_lt (by omega)
    obtain ⟨htag, hcomp, hvalue⟩ := h.head
    have hnext : of + UInt32.ofNat (12 * (e :: es).length)
        = of + 12 + UInt32.ofNat (12 * es.length) := by
      rw [List.length_cons, mul_add, mul_one, UInt32.ofNat_add, add_assoc,
        add_comm (UInt32.ofNat _)]
      rfl
    rw [hnext]
    refine fileRun_bind (fileRun_ensureSize (by rw [hadd 12 (by decide)]; simp; omega)) ?_
    refine fileRun_ite_neg (by simp) ?_
    refine fileRun_bind (fileRun_readU16 htag) ?_
    have h2 : (of + 2).toNat + 2 ≤ file.length := by
      rw [hadd 2 (by decide)]
      simp
      omega
    have h4 : (of + 4).toNat + 4 ≤ file.length := by
      rw [hadd 4 (by decide)]
      simp
      omega
    refine fileRun_bind (fileRun_readU16 (readLe_isSome h2)) ?_
    refine fileRun_bind (fileRun_readU32 (readLe_isSome h4)) ?_
    refine fileRun_bind (fileRun_readU32 (by rw [hadd 8 (by decide)]; exact hvalue)) ?_
    refine fileRun_bind (fileRun_modify _) ?_
    rw [UInt16.ofNat_toNat, UInt32.ofNat_toNat]
    refine ih ?_
    rw [hadd 12 (by decide)]
    exact h.tail

/-- The thumbnail found so far, if there is one, lies inside the file. -/
def ThumbInside (file : List UInt8) (c : ExifParser) : Prop :=
  c.thumbOf ≠ 0 → c.thumbSize ≠ 0 → (c.thumbOf + c.thumbSize).toNat ≤ file.length

theorem fileRun_ensureThumb (h : ThumbInside file c) : FileRun file ensureThumb c 0 c := by
  refine fileRun_bind fileRun_get ?_
  by_cases hc : c.thumbOf ≠ 0 ∧ c.thumbSize ≠ 0
  · refine fileRun_ite_pos hc (fileRun_bind (fileRun_ensureSize (h hc.1 hc.2)) ?_)
    exact fileRun_pure _
  · exact fileRun_ite_neg hc (fileRun_pure _)

theorem fileRun_exifParseIfd (hfile : file.length < 2 ^ 32) (h : Directory file of.toNat es)
    (hthumb : ThumbInside file (applyEntries c es)) :
    FileRun file (exifParseIfd of) c (0, of + 2 + UInt32.ofNat (12 * es.length))
      (applyEntries c es) := by
  have hle := h.entries.length_le
  have hof : (of + 2).toNat = of.toNat + 2 := toNat_add_of_lt (by simp; omega)
  have hlen : (UInt16.ofNat es.length).toNat = es.length := UInt16.toNat_ofNat_of_lt' h.length_lt
  refine fileRun_bind (fileRun_readU16 h.count) ?_
  rw [hlen]
  refine fileRun_bind (fileRun_parseEntries hfile (by rw [hof]; exact h.entries)) ?_
  refine fileRun_ite_neg (by simp) ?_
  exact fileRun_bind (fileRun_ensureThumb hthumb) (fileRun_pure _)

/-- A directory a pointer leads to. -/
theorem fileRun_parseOther {pointer : UInt32} (hfile : file.length < 2 ^ 32)
    (h : pointer ≠ 0 → Directory file (c.exifStart.toNat + pointer.toNat) es)
    (hes : pointer = 0 → es = []) (hthumb : ThumbInside file (applyEntries c es)) :
    FileRun file (parseOther pointer) c 0 (applyEntries c es) := by
  by_cases hp : pointer ≠ 0
  · have hdir := h hp
    have hle := hdir.entries.length_le
    have hof : (c.exifStart + pointer).toNat = c.exifStart.toNat + pointer.toNat :=
      toNat_add_of_lt (by omega)
    refine fileRun_ite_pos hp (fileRun_bind fileRun_get ?_)
    refine fileRun_bind (fileRun_ensureSize (by rw [hof]; omega)) ?_
    refine fileRun_ite_neg (by simp) ?_
    exact fileRun_bind (fileRun_exifParseIfd hfile (by rwa [hof]) hthumb) (fileRun_pure _)
  · rw [hes (not_not.mp hp)]
    exact fileRun_ite_neg hp (fileRun_pure _)

end Read

/-! ### Well-formed files -/

/-- A little-endian Exif JPEG with a thumbnail. -/
structure ExifJpeg where
  file : List UInt8
  /-- the JFIF segment, if there is one -/
  jfif : List UInt8
  /-- the length in the APP1 header -/
  app1Len : UInt8 × UInt8
  /-- the offset of the TIFF header -/
  tiff : ℕ
  of0 : UInt32
  ifd0 : List IfdEntry
  of1 : UInt32
  ifd1 : List IfdEntry
  /-- the offset of the directory that tag 0x8769 names, 0 if there is none -/
  subOf : UInt32
  sub : List IfdEntry
  thumbOf : UInt32
  thumbSize : UInt32
  hundred_le : 100 ≤ file.length
  length_lt : file.length < 2 ^ 32
  jfif_eq : jfif = [] ∨ ∃ tail : List UInt8, tail.length = 10 ∧
    jfif = [0xff, 0xe0, 0x00, 0x10] ++ ascii "JFIF" ++ tail
  tiff_eq : tiff = 12 + jfif.length
  header : ∃ rest, file = [0xff, 0xd8] ++ jfif ++ [0xff, 0xe1, app1Len.1, app1Len.2]
    ++ (ascii "Exif" ++ [0, 0]) ++ [0x49, 0x49, 0x2a, 0x00] ++ leBytes 4 of0.toNat ++ rest
  eight_le : 8 ≤ of0.toNat
  dir0 : Directory file (tiff + of0.toNat) ifd0
  next : readLe file (tiff + of0.toNat + 2 + 12 * ifd0.length) 4 = some of1.toNat
  of1_ne : of1 ≠ 0
  dir1 : Directory file (tiff + of1.toNat) ifd1
  subOf_eq : subOf = ((lastTag ifd1 0x8769).or (lastTag ifd0 0x8769)).getD 0
  dirSub : subOf ≠ 0 → Directory file (tiff + subOf.toNat) sub
  sub_eq : subOf = 0 → sub = []
  noThumb0 : ∀ e ∈ ifd0, e.tag ≠ 0x0201 ∧ e.tag ≠ 0x0202
  noThumbSub : ∀ e ∈ sub, e.tag ≠ 0x0201 ∧ e.tag ≠ 0x0202
  thumbOf_eq : lastTag ifd1 0x0201 = some thumbOf
  thumbSize_eq : lastTag ifd1 0x0202 = some thumbSize
  thumb_le : tiff + thumbOf.toNat + thumbSize.toNat ≤ file.length

namespace ExifJpeg

variable (J : ExifJpeg)

/-- The reader at the TIFF header. -/
def atTiff : ExifParser := { ExifParser.zero with exifStart := UInt32.ofNat J.tiff }

/-- The reader behind the first directory. -/
def behindIfd0 : ExifParser := applyEntries J.atTiff J.ifd0

/-- The reader behind the second directory. -/
def behindIfd1 : ExifParser := applyEntries J.behindIfd0 J.ifd1

/-- The reader at the end. -/
def atEnd : ExifParser := applyEntries J.behindIfd1 J.sub

theorem tiff_lt : J.tiff < 2 ^ 32 := by
  have := J.dir0.entries.length_le
  have := J.length_lt
  omega

theorem tiff_toNat : (UInt32.ofNat J.tiff).toNat = J.tiff := UInt32.toNat_ofNat_of_lt' J.tiff_lt

theorem behindIfd0_thumbOf : J.behindIfd0.thumbOf = 0 := by
  rw [behindIfd0, applyEntries_thumbOf, lastTag_eq_none fun e he => (J.noThumb0 e he).1]
  rfl

theorem behindIfd0_exifStart : J.behindIfd0.exifStart = UInt32.ofNat J.tiff :=
  applyEntries_exifStart

theorem behindIfd1_exifStart : J.behindIfd1.exifStart = UInt32.ofNat J.tiff :=
  applyEntries_exifStart.trans J.behindIfd0_exifStart

theorem behindIfd1_thumbOf : J.behindIfd1.thumbOf = UInt32.ofNat J.tiff + J.thumbOf := by
  rw [behindIfd1, applyEntries_thumbOf, J.thumbOf_eq, J.behindIfd0_exifStart]
  rfl

theorem behindIfd1_thumbSize : J.behindIfd1.thumbSize = J.thumbSize := by
  rw [behindIfd1, applyEntries_thumbSize, J.thumbSize_eq, Option.getD_some]

theorem behindIfd1_subifd : J.behindIfd1.subifd = J.subOf := by
  rw [behindIfd1, applyEntries_subifd, behindIfd0, applyEntries_subifd, J.subOf_eq,
    Option.getD_or]
  rfl

theorem atEnd_exifStart : J.atEnd.exifStart = UInt32.ofNat J.tiff :=
  applyEntries_exifStart.trans J.behindIfd1_exifStart

theorem atEnd_thumbOf : J.atEnd.thumbOf = UInt32.ofNat J.tiff + J.thumbOf := by
  rw [atEnd, applyEntries_thumbOf, lastTag_eq_none fun e he => (J.noThumbSub e he).1,
    Option.map_none, Option.getD_none, J.behindIfd1_thumbOf]

theorem atEnd_thumbSize : J.atEnd.thumbSize = J.thumbSize := by
  rw [atEnd, applyEntries_thumbSize, lastTag_eq_none fun e he => (J.noThumbSub e he).2,
    Option.getD_none, J.behindIfd1_thumbSize]

/-- A thumbnail where the file has it lies inside. -/
theorem thumbInside {c : ExifParser} (hof : c.thumbOf = UInt32.ofNat J.tiff + J.thumbOf)
    (hsize : c.thumbSize = J.thumbSize) : ThumbInside J.file c := by
  intro _ _
  have hle := J.thumb_le
  have hlt := J.length_lt
  have hadd : (UInt32.ofNat J.tiff + J.thumbOf).toNat = J.tiff + J.thumbOf.toNat := by
    rw [toNat_add_of_lt (by rw [J.tiff_toNat]; omega), J.tiff_toNat]
  rw [hof, hsize, toNat_add_of_lt (by rw [hadd]; omega), hadd]
  exact hle

/-- The bytes in front of the TIFF header and behind it. -/
theorem header_eq : ∃ pre rest, pre.length = J.tiff ∧
    J.file = pre ++ [0x49, 0x49, 0x2a, 0x00] ++ leBytes 4 J.of0.toNat ++ rest := by
  obtain ⟨rest, hfile⟩ := J.header
  refine ⟨_, rest, ?_, hfile⟩
  rw [J.tiff_eq]
  simp [ascii]
  omega

/-- **The directories of a well-formed file are read to their end.** -/
theorem fileRun_exifStartEntries : FileRun J.file (exifStartEntries (UInt32.ofNat J.tiff))
    J.atTiff 0 J.atEnd := by
  have hlt := J.length_lt
  have htiff := J.tiff_toNat
  have hle0 := J.dir0.entries.length_le
  obtain ⟨pre, rest, hpre, hfile⟩ := J.header_eq
  have hlen : J.tiff + 8 ≤ J.file.length := by
    rw [hfile, ← hpre]
    simp
  have h2 : (UInt32.ofNat J.tiff + 2).toNat = J.tiff + 2 := by
    rw [toNat_add_of_lt (by rw [htiff]; simp; omega), htiff]
    rfl
  have h4 : (UInt32.ofNat J.tiff + 4).toNat = J.tiff + 4 := by
    rw [toNat_add_of_lt (by rw [htiff]; simp; omega), htiff]
    rfl
  have hread : readLe J.file (UInt32.ofNat J.tiff + 4).toNat 4 = some J.of0.toNat := by
    have hval : J.of0.toNat < 256 ^ 4 := J.of0.toNat_lt
    rw [h4, readLe_part hfile (by rw [List.length_append, hpre]; rfl) (leBytes_length _ _),
      leNat_leBytes, Nat.mod_eq_of_lt hval]
  -- the offset of the first directory is applied as a difference to 8
  have hof0 : UInt32.ofNat J.tiff + 8 + (J.of0 - 8) = UInt32.ofNat J.tiff + J.of0 := by grind
  have hof0' : (UInt32.ofNat J.tiff + J.of0).toNat = J.tiff + J.of0.toNat := by
    rw [toNat_add_of_lt (by rw [htiff]; omega), htiff]
  have hnext : (UInt32.ofNat J.tiff + J.of0 + 2 + UInt32.ofNat (12 * J.ifd0.length)).toNat
      = J.tiff + J.of0.toNat + 2 + 12 * J.ifd0.length := by
    have h2' : (UInt32.ofNat J.tiff + J.of0 + 2).toNat = J.tiff + J.of0.toNat + 2 := by
      rw [toNat_add_of_lt (by rw [hof0']; simp; omega), hof0']
      rfl
    have h12 : (UInt32.ofNat (12 * J.ifd0.length)).toNat = 12 * J.ifd0.length :=
      UInt32.toNat_ofNat_of_lt' (show _ < 2 ^ 32 by omega)
    rw [toNat_add_of_lt (by rw [h2', h12]; omega), h2', h12]
  obtain ⟨v, horder⟩ := @fileRun_readBeU16 J.file J.atTiff .tiff (UInt32.ofNat J.tiff)
    (by rw [htiff]; omega)
  refine fileRun_bind horder ?_
  refine fileRun_bind (fileRun_readU16 (readLe_isSome (by rw [h2]; omega))) ?_
  refine fileRun_bind (fileRun_readU32 hread) ?_
  rw [UInt32.ofNat_toNat, hof0]
  -- the first directory has no thumbnail
  have hthumb0 : ThumbInside J.file J.behindIfd0 := fun hne =>
    absurd J.behindIfd0_thumbOf hne
  refine fileRun_bind (fileRun_exifParseIfd hlt (by rw [hof0']; exact J.dir0) hthumb0) ?_
  refine fileRun_ite_neg (by simp) ?_
  refine fileRun_bind (fileRun_readU32 (by rw [hnext]; exact J.next)) ?_
  rw [UInt32.ofNat_toNat]
  refine fileRun_bind (fileRun_parseOther hlt (fun _ => ?_) (fun h => absurd h J.of1_ne)
    (J.thumbInside J.behindIfd1_thumbOf J.behindIfd1_thumbSize)) ?_
  · have hstart : (applyEntries J.atTiff J.ifd0).exifStart = UInt32.ofNat J.tiff :=
      J.behindIfd0_exifStart
    rw [hstart, htiff]
    exact J.dir1
  refine fileRun_ite_neg (by simp) ?_
  refine fileRun_bind fileRun_get ?_
  have hsub : (applyEntries (applyEntries J.atTiff J.ifd0) J.ifd1).subifd = J.subOf :=
    J.behindIfd1_subifd
  rw [hsub]
  refine fileRun_parseOther hlt (fun hne => ?_) J.sub_eq
    (J.thumbInside J.atEnd_thumbOf J.atEnd_thumbSize)
  have hstart : (applyEntries (applyEntries J.atTiff J.ifd0) J.ifd1).exifStart
      = UInt32.ofNat J.tiff := J.behindIfd1_exifStart
  rw [hstart, htiff]
  exact J.dirSub hne

/-- The bytes of a field in the middle of a file. -/
theorem fileRun_readPart {file l m r : List UInt8} {c : ExifParser} (field : ExifField)
    (of : UInt32) {n : ℕ} (hfile : file = l ++ m ++ r) (hl : l.length = of.toNat)
    (hm : m.length = n) : ∃ b : Vector UInt8 n, b.toList = m ∧
      FileRun file (readBytes field of n) c b c := by
  have hin : of.toNat + n ≤ file.length := by
    rw [hfile, ← hl, ← hm]
    simp
  refine ⟨_, ?_, fileRun_readBytes hin⟩
  rw [fileOracle_read hin, ← hl, ← hm, hfile, List.append_assoc, List.drop_left, List.take_left]

/-- The Exif header, at the end of which the TIFF header starts. -/
theorem fileRun_startExif {l r : List UInt8} {of : UInt32}
    (hfile : J.file = l ++ (ascii "Exif" ++ [0, 0]) ++ r) (hl : l.length = of.toNat)
    (hof : of + 6 = UInt32.ofNat J.tiff) :
    FileRun J.file (startExif of) ExifParser.zero 0 J.atEnd := by
  obtain ⟨b, hb, hread⟩ := fileRun_readPart .exif of hfile hl rfl
  refine fileRun_bind hread (fileRun_ite_pos hb (fileRun_bind (fileRun_modify _) ?_))
  rw [hof]
  exact J.fileRun_exifStartEntries

theorem fileRun_exifStart : FileRun J.file (exifStart 2) ExifParser.zero 0 J.atEnd := by
  have hlen := J.hundred_le
  have h2 : (2 : UInt32).toNat + 2 ≤ J.file.length := by
    rw [show (2 : UInt32).toNat = 2 from rfl]
    omega
  have h4 : (2 + 2 : UInt32).toNat + 2 ≤ J.file.length := by
    rw [show (2 + 2 : UInt32).toNat = 4 from rfl]
    omega
  obtain ⟨v, htype⟩ := @fileRun_readBeU16 J.file .zero .segment 2 h2
  obtain ⟨w, hseg⟩ := @fileRun_readBeU16 J.file .zero .segment (2 + 2) h4
  obtain ⟨rest, hfile⟩ := J.header
  have htiff := J.tiff_eq
  refine fileRun_bind htype (fileRun_bind hseg ?_)
  rcases J.jfif_eq with hjfif | ⟨tail, htail, hjfif⟩
  · rw [hjfif, List.append_nil] at hfile
    -- without a JFIF segment the Exif header comes next
    have hpart : J.file = ([0xff, 0xd8] ++ [0xff, 0xe1, J.app1Len.1, J.app1Len.2])
        ++ [0x45, 0x78, 0x69, 0x66]
        ++ ([0, 0] ++ [0x49, 0x49, 0x2a, 0x00] ++ leBytes 4 J.of0.toNat ++ rest) := by
      rw [hfile]
      simp [ascii]
    obtain ⟨b, hb, hread⟩ := fileRun_readPart .jfif (2 + 4) hpart rfl rfl
    refine fileRun_bind hread (fileRun_ite_neg (by rw [hb]; decide) ?_)
    have hexif : J.file = ([0xff, 0xd8] ++ [0xff, 0xe1, J.app1Len.1, J.app1Len.2])
        ++ (ascii "Exif" ++ [0, 0])
        ++ ([0x49, 0x49, 0x2a, 0x00] ++ leBytes 4 J.of0.toNat ++ rest) := by
      rw [hfile]
      simp
    refine J.fileRun_startExif hexif rfl ?_
    rw [htiff, hjfif]
    rfl
  · rw [hjfif] at hfile
    have hpart : J.file = ([0xff, 0xd8] ++ [0xff, 0xe0, 0x00, 0x10]) ++ ascii "JFIF"
        ++ (tail ++ [0xff, 0xe1, J.app1Len.1, J.app1Len.2] ++ (ascii "Exif" ++ [0, 0])
          ++ [0x49, 0x49, 0x2a, 0x00] ++ leBytes 4 J.of0.toNat ++ rest) := by
      rw [hfile]
      simp
    obtain ⟨b, hb, hread⟩ := fileRun_readPart .jfif (2 + 4) hpart rfl rfl
    refine fileRun_bind hread (fileRun_ite_pos hb ?_)
    have hexif : J.file = ([0xff, 0xd8] ++ ([0xff, 0xe0, 0x00, 0x10] ++ ascii "JFIF" ++ tail)
        ++ [0xff, 0xe1, J.app1Len.1, J.app1Len.2]) ++ (ascii "Exif" ++ [0, 0])
        ++ ([0x49, 0x49, 0x2a, 0x00] ++ leBytes 4 J.of0.toNat ++ rest) := by
      rw [hfile]
      simp
    refine J.fileRun_startExif hexif ?_ ?_
    · simp [ascii, htail]
    · rw [htiff, hjfif]
      simp [ascii, htail]

theorem fileRun_startFile : FileRun J.file startFile ExifParser.zero 0 J.atEnd := by
  obtain ⟨rest, hfile⟩ := J.header
  have hlen := J.hundred_le
  have hmagic : (0 : UInt32).toNat + 15 ≤ J.file.length := by
    rw [show (0 : UInt32).toNat = 0 from rfl]
    omega
  refine fileRun_bind (fileRun_readBytes hmagic) (fileRun_ite_neg ?_ ?_)
  -- the first byte is not that of a RAF file
  · rw [fileOracle_read hmagic, hfile]
    intro h
    have hhead := congrArg List.head? h
    simp [ascii] at hhead
  have hff : J.file = [] ++ [0xff] ++ J.file.tail := by
    rw [hfile]
    rfl
  have hd8 : J.file = [0xff] ++ [0xd8] ++ J.file.tail.tail := by
    rw [hfile]
    rfl
  obtain ⟨b0, hb0, hread0⟩ := fileRun_readPart .marker 0 hff rfl rfl
  obtain ⟨b1, hb1, hread1⟩ := fileRun_readPart .marker (0 + 1) hd8 rfl rfl
  refine fileRun_bind hread0 (fileRun_ite_pos hb0 ?_)
  exact fileRun_bind hread1 (fileRun_ite_pos hb1 J.fileRun_exifStart)

theorem fileRun_exifStartRaw (c : ExifParser) : FileRun J.file exifStartRaw c 0 J.atEnd := by
  refine fileRun_bind (fileRun_modify fun _ => ExifParser.zero) ?_
  refine fileRun_bind (fileRun_ensureSize J.hundred_le) (fileRun_ite_neg (by simp) ?_)
  exact J.fileRun_startFile

end ExifJpeg

/-- **The thumbnail of a well-formed file**: the reader returns 0, whatever callback it has, and
has found the thumbnail that the second directory names. -/
theorem exifStartRaw_thumb (J : ExifJpeg) (get : GetMore) (c : ExifParser) :
    (∃ h rc s c', Exec exifStartRaw c h rc s ∧
      Follows get ⟨J.file, UInt32.ofNat J.file.length⟩ h c') ∧
    ∀ h rc s c', Exec exifStartRaw c h rc s →
      Follows get ⟨J.file, UInt32.ofNat J.file.length⟩ h c' →
      rc = 0 ∧ s.exifStart.toNat = J.tiff ∧ s.thumbOf = s.exifStart + J.thumbOf ∧
        s.thumbSize = J.thumbSize := by
  have hlen : (UInt32.ofNat J.file.length).toNat = J.file.length :=
    UInt32.toNat_ofNat_of_lt' J.length_lt
  obtain ⟨h₀, hrun₀, hon⟩ := J.fileRun_exifStartRaw c
  refine ⟨⟨h₀, 0, J.atEnd, _, hrun₀, hon.follows hlen⟩, fun h rc s c' hrun hbuf => ?_⟩
  have hshow : Buffer.Shows J.file ⟨J.file, UInt32.ofNat J.file.length⟩ := fun _ _ _ => rfl
  obtain ⟨-, heq⟩ := runs_unique hrun₀ hon (hon.inRange hlen) (hon.provided hlen) hshow hrun hbuf
  obtain ⟨rfl, rfl⟩ := Prod.mk.inj heq
  refine ⟨rfl, ?_, ?_, J.atEnd_thumbSize⟩
  · rw [J.atEnd_exifStart, J.tiff_toNat]
  · rw [J.atEnd_thumbOf, J.atEnd_exifStart]

/-- A file of 100 bytes: an empty first directory, a second one with the thumbnail at 60. -/
def smallJpegFile : List UInt8 :=
  [0xff, 0xd8, 0xff, 0xe1, 0x00, 0x60] ++ (ascii "Exif" ++ [0, 0]) ++ [0x49, 0x49, 0x2a, 0x00]
    ++ leBytes 4 8 ++ (leBytes 2 0 ++ leBytes 4 14)
    ++ (leBytes 2 2 ++ (leBytes 2 0x0201 ++ leBytes 2 4 ++ leBytes 4 1 ++ leBytes 4 48)
      ++ (leBytes 2 0x0202 ++ leBytes 2 4 ++ leBytes 4 1 ++ leBytes 4 16))
    ++ List.replicate 48 0

def smallJpeg : ExifJpeg where
  file := smallJpegFile
  jfif := []
  app1Len := (0x00, 0x60)
  tiff := 12
  of0 := 8
  ifd0 := []
  of1 := 14
  ifd1 := [⟨0x0201, 4, 1, 48⟩, ⟨0x0202, 4, 1, 16⟩]
  subOf := 0
  sub := []
  thumbOf := 48
  thumbSize := 16
  hundred_le := by decide +kernel
  length_lt := by decide +kernel
  jfif_eq := .inl rfl
  tiff_eq := rfl
  header := ⟨smallJpegFile.drop 20, by decide +kernel⟩
  eight_le := by decide
  dir0 := ⟨by decide, by decide +kernel, smallJpegFile.take 22, smallJpegFile.drop 22,
    by decide +kernel, by decide +kernel⟩
  next := by decide +kernel
  of1_ne := by decide
  dir1 := ⟨by decide, by decide +kernel, smallJpegFile.take 28, smallJpegFile.drop 52,
    by decide +kernel, by decide +kernel⟩
  subOf_eq := by decide +kernel
  dirSub h := absurd rfl h
  sub_eq _ := rfl
  noThumb0 := by simp
  noThumbSub := by simp
  thumbOf_eq := by decide +kernel
  thumbSize_eq := by decide +kernel
  thumb_le := by decide +kernel

theorem smallJpeg_thumb : ∃ h s c', Exec exifStartRaw .zero h 0 s ∧
    Follows .null ⟨smallJpegFile, UInt32.ofNat smallJpegFile.length⟩ h c' ∧
    s.thumbOf = s.exifStart + 48 ∧ s.thumbSize = 16 := by
  obtain ⟨⟨h, rc, s, c', hrun, hbuf⟩, hall⟩ := exifStartRaw_thumb smallJpeg .null .zero
  obtain ⟨rfl, -, hof, hsize⟩ := hall h rc s c' hrun hbuf
  exact ⟨h, s, c', hrun, hbuf, hof, hsize⟩

end Exif

end Fuji
