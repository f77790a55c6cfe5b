/-
The range of a thumbnail that the Exif reader reports.

What the reader reports is decided by the entries it has read (`exifStartRaw_fields`).  Each
directory ends with a size check for the thumbnail found so far, and after a run without an
error nothing has been asked for since (`exifStartRaw_settled`); so the sum of offset and size
is at most the final length unless the check itself wraps around (`RangeKept`).

`ptp_get_partial_exif` goes by the two members alone.  `thumb_range_iff` says when its report
is one of a reader that has succeeded.
-/
import LibFuji.ExifAgree
import LibFuji.Thumb

namespace Fuji

open ByteCodec Interaction

namespace Exif

/-! ### The entries of a run -/

/-- The numbers in the entries that a run has read. -/
def entryNumbers (h : ExifHistory) : List ℕ :=
  h.filterMap fun
    | ⟨.read .entry _ _, b⟩ => some (leNat b.toList)
    | _ => none

/-- Four numbers make an entry. -/
def toEntries : List ℕ → List IfdEntry
  | tag :: format :: components :: value :: ns =>
    ⟨UInt16.ofNat tag, UInt16.ofNat format, UInt32.ofNat components, UInt32.ofNat value⟩
      :: toEntries ns
  | _ => []

/-- The entries that a run has read. -/
def entriesRead (h : ExifHistory) : List IfdEntry := toEntries (entryNumbers h)

/-- Where a run has found the TIFF header, 0 if nowhere. -/
def tiffStart (h : ExifHistory) : UInt32 :=
  (h.findSome? fun
    | ⟨.read .tiff of _, _⟩ => some of
    | _ => none).getD 0

/-- The offset the entries of a run give the thumbnail, 0 if none does. -/
def thumbOfRead (h : ExifHistory) : UInt32 :=
  ((lastTag (entriesRead h) 0x0201).map (tiffStart h + ·)).getD 0

/-- The size the entries of a run give the thumbnail, 0 if none does. -/
def thumbSizeRead (h : ExifHistory) : UInt32 := (lastTag (entriesRead h) 0x0202).getD 0

theorem toEntries_append {l r : List ℕ} (h : 4 ∣ l.length) :
    toEntries (l ++ r) = toEntries l ++ toEntries r := by
  obtain ⟨k, hk⟩ := h
  induction k generalizing l with
  | zero =>
    obtain rfl := List.length_eq_zero_iff.mp hk
    rfl
  | succ k ih =>
    match l, hk with
    | t :: f :: c :: v :: l, hk =>
      have hl : l.length = 4 * k := by
        simp only [List.length_cons] at hk
        omega
      simp only [List.cons_append, toEntries, ih hl]

/-- The state is that of the entries read, which are complete. -/
structure Tracks (s : ExifParser) (h : ExifHistory) (s' : ExifParser) : Prop where
  state : s' = applyEntries s (entriesRead h)
  whole : 4 ∣ (entryNumbers h).length

theorem entryNumbers_append (h h' : ExifHistory) :
    entryNumbers (h ++ h') = entryNumbers h ++ entryNumbers h' := List.filterMap_append

instance : @Composes ExifOp ExifOp.Ret ExifParser Tracks where
  nil s := ⟨rfl, dvd_zero 4⟩
  append {s s' s'' h h'} ht ht' := by
    refine ⟨?_, ?_⟩
    · rw [entriesRead, entryNumbers_append, toEntries_append ht.whole, ht'.state, ht.state]
      exact (List.foldl_append ..).symm
    · rw [entryNumbers_append, List.length_append]
      exact dvd_add ht.whole ht'.whole

/-- Reads other than those of an entry, and sizes, leave the state. -/
theorem tracks_read {field : ExifField} (hfield : field ≠ .entry) (of : UInt32) {n : ℕ} {α : Type}
    (g : Vector UInt8 n → α) : Obeys Tracks (readBytes field of n >>= fun b => pure (g b)) := by
  rintro s _ _ _ (_ | ⟨b, ⟨⟩⟩)
  have hnone : entryNumbers [⟨.read field of n, b⟩] = [] := by
    cases field <;> first | rfl | exact absurd rfl hfield
  exact ⟨by rw [entriesRead, hnone]; rfl, by rw [hnone]; exact dvd_zero 4⟩

theorem tracks_ensureSize (length : UInt32) : Obeys Tracks (ensureSize length) :=
  obeys_call fun _ _ => ⟨rfl, dvd_zero 4⟩

theorem tracks_parseEntries (n : ℕ) (of : UInt32) : Obeys Tracks (parseEntries n of) := by
  induction n generalizing of with
  | zero => exact obeys_pure _
  | succ n ih =>
    refine obeys_bind (tracks_ensureSize _) fun ok => obeys_ite (obeys_pure _) ?_
    intro s h a s' hrun
    -- the four reads of an entry, and what the switch does with it
    obtain ⟨tag, h₁, rfl, hrun₁⟩ := exec_readU16_bind.mp hrun
    obtain ⟨format, h₂, rfl, hrun₂⟩ := exec_readU16_bind.mp hrun₁
    obtain ⟨components, h₃, rfl, hrun₃⟩ := exec_readU32_bind.mp hrun₂
    obtain ⟨value, h₄, rfl, hrun₄⟩ := exec_readU32_bind.mp hrun₃
    rw [exec_modify_bind] at hrun₄
    have hrest := ih _ _ _ _ _ hrun₄
    refine ⟨hrest.state, ?_⟩
    obtain ⟨k, hk⟩ := hrest.whole
    refine ⟨k + 1, ?_⟩
    show (entryNumbers h₄).length + 4 = 4 * (k + 1)
    omega

theorem tracks_ensureThumb : Obeys Tracks ensureThumb :=
  obeys_bind obeys_get fun _ => obeys_ite
    (obeys_bind (tracks_ensureSize _) fun _ => obeys_pure _) (obeys_pure _)

theorem tracks_exifParseIfd (of : UInt32) : Obeys Tracks (exifParseIfd of) := by
  refine obeys_bind (tracks_read (by decide) _ _) fun entries => ?_
  refine obeys_bind (tracks_parseEntries _ _) fun r => obeys_ite (obeys_pure _) ?_
  exact obeys_bind tracks_ensureThumb fun rc => obeys_pure _

theorem tracks_parseOther (pointer : UInt32) : Obeys Tracks (parseOther pointer) := by
  refine obeys_ite (obeys_bind obeys_get fun c => ?_) (obeys_pure _)
  refine obeys_bind (tracks_ensureSize _) fun ok => obeys_ite (obeys_pure _) ?_
  exact obeys_bind (tracks_exifParseIfd _) fun r => obeys_pure _

/-! ### The check of the thumbnail -/

/-- Calls of `ensure_size`. -/
def isCheck : Event ExifOp ExifOp.Ret → Bool
  | ⟨.ensureSize _, _⟩ => true
  | _ => false

/-- The last size that was made sure of is that of the thumbnail. -/
def Settled (h : ExifHistory) (s : ExifParser) : Prop :=
  s.thumbOf ≠ 0 → s.thumbSize ≠ 0 → ∃ h₁ t,
    h = h₁ ++ ⟨.ensureSize (s.thumbOf + s.thumbSize), true⟩ :: t ∧ ∀ e ∈ t, isCheck e = false

section Settled

variable {s s' : ExifParser} {h h' : ExifHistory} {rc : Int} {of : UInt32}

theorem Settled.behind (hs : Settled h s) (h₀ : ExifHistory) : Settled (h₀ ++ h) s := by
  intro hof hsize
  obtain ⟨h₁, t, rfl, ht⟩ := hs hof hsize
  exact ⟨h₀ ++ h₁, t, (List.append_assoc ..).symm, ht⟩

theorem Settled.reads (hs : Settled h s) (hreads : ∀ e ∈ h', isCheck e = false) :
    Settled (h ++ h') s := by
  intro hof hsize
  obtain ⟨h₁, t, rfl, ht⟩ := hs hof hsize
  refine ⟨h₁, t ++ h', by simp, fun e he => ?_⟩
  rcases List.mem_append.mp he with he | he
  · exact ht e he
  · exact hreads e he

theorem ensureThumb_settled (hrun : Exec ensureThumb s h rc s') (hrc : ¬ rc < 0) :
    Settled h s' := by
  rw [ensureThumb, exec_get_bind] at hrun
  by_cases hthumb : s.thumbOf ≠ 0 ∧ s.thumbSize ≠ 0
  · rw [if_pos hthumb] at hrun
    obtain ⟨ok, h₂, rfl, hret⟩ := exec_ensureSize_bind.mp hrun
    cases hret
    cases ok with
    | false => exact absurd (show (-1 : Int) < 0 by decide) hrc
    | true => exact fun _ _ => ⟨[], [], rfl, by simp⟩
  · rw [if_neg hthumb] at hrun
    cases hrun
    exact fun hof hsize => absurd ⟨hof, hsize⟩ hthumb

theorem exifParseIfd_settled {r : Int × UInt32} (hrun : Exec (exifParseIfd of) s h r s')
    (hrc : ¬ r.1 < 0) : Settled h s' := by
  obtain ⟨entries, h₁, rfl, hrun₁⟩ := exec_readU16_bind.mp hrun
  obtain ⟨h₂, r₁, s₂, h₃, rfl, -, hrun₂⟩ := exec_of_bind hrun₁
  by_cases hr : r₁.1 < 0
  · rw [if_pos hr] at hrun₂
    cases hrun₂
    exact absurd hr hrc
  · rw [if_neg hr] at hrun₂
    obtain ⟨h₄, rc, s₃, h₅, rfl, hthumb, hret⟩ := exec_of_bind hrun₂
    cases hret
    rw [List.append_nil]
    exact ((ensureThumb_settled hthumb hrc).behind h₂).behind [_]

/-- A directory that is not there leaves the check where it was. -/
theorem parseOther_settled {pointer : UInt32} (hrun : Exec (parseOther pointer) s h' rc s')
    (hrc : ¬ rc < 0) (hs : Settled h s) : Settled (h ++ h') s' := by
  rw [parseOther] at hrun
  by_cases hpointer : pointer ≠ 0
  · rw [if_pos hpointer, exec_get_bind] at hrun
    obtain ⟨ok, h₁, rfl, hrun₁⟩ := exec_ensureSize_bind.mp hrun
    by_cases hok : ok = false
    · rw [if_pos hok] at hrun₁
      cases hrun₁
      exact absurd (show (-1 : Int) < 0 by decide) hrc
    · rw [if_neg hok] at hrun₁
      obtain ⟨h₂, r, s₂, h₃, rfl, hifd, hret⟩ := exec_of_bind hrun₁
      cases hret
      rw [List.append_nil]
      exact ((exifParseIfd_settled hifd hrc).behind [_]).behind h
  · rw [if_neg hpointer] at hrun
    cases hrun
    exact hs.reads (by simp)

theorem exifStartEntries_settled (hrun : Exec (exifStartEntries of) s h rc s') (hrc : ¬ rc < 0) :
    Settled h s' := by
  obtain ⟨order, h₁, rfl, hrun₁⟩ := exec_readBeU16_bind.mp hrun
  obtain ⟨version, h₂, rfl, hrun₂⟩ := exec_readU16_bind.mp hrun₁
  obtain ⟨offset, h₃, rfl, hrun₃⟩ := exec_readU32_bind.mp hrun₂
  obtain ⟨h₄, r, s₄, h₅, rfl, hifd0, hrun₄⟩ := exec_of_bind hrun₃
  refine Settled.behind ?_ [_, _, _]
  by_cases hr : r.1 < 0
  · rw [if_pos hr] at hrun₄
    cases hrun₄
    exact absurd hr hrc
  rw [if_neg hr] at hrun₄
  obtain ⟨b, h₆, rfl, hrun₅⟩ := exec_readU32_bind.mp hrun₄
  obtain ⟨h₇, rc₁, s₆, h₈, rfl, hother, hrun₆⟩ := exec_of_bind hrun₅
  -- the pointer to the next directory is only read
  have hnext : Settled (h₄ ++ [⟨.read .next r.2 4, b⟩]) s₄ :=
    (exifParseIfd_settled hifd0 hr).reads (by simp [isCheck])
  by_cases hrc₁ : rc₁ < 0
  · rw [if_pos hrc₁] at hrun₆
    cases hrun₆
    exact absurd hrc₁ hrc
  rw [if_neg hrc₁, exec_get_bind] at hrun₆
  have hsub := parseOther_settled hrun₆ hrc (parseOther_settled hother hrc₁ hnext)
  simpa using hsub

end Settled

/-! ### The whole reader -/

/-- What a run of the reader says about its result: the thumbnail is that of the entries it has
read; where there is one, the return value says whether all sizes were granted; and without an
error the last of them was that of the thumbnail. -/
structure Accounts (h : ExifHistory) (rc : Int) (s : ExifParser) : Prop where
  thumbOf : s.thumbOf = thumbOfRead h
  thumbSize : s.thumbSize = thumbSizeRead h
  settled : ¬ rc < 0 → Settled h s
  code : s.thumbOf ≠ 0 → rc = if granted h then 0 else -1

section Accounts

variable {s s' : ExifParser} {h : ExifHistory} {rc : Int} {of : UInt32}

/-- Without entries there is no thumbnail. -/
theorem accounts_nil (rc : Int) : Accounts [] rc .zero where
  thumbOf := rfl
  thumbSize := rfl
  settled _ hof := absurd rfl hof
  code hof := absurd rfl hof

theorem Accounts.read (ha : Accounts h rc s) {field : ExifField} (hentry : field ≠ .entry)
    (htiff : field ≠ .tiff) {n : ℕ} (b : Vector UInt8 n) :
    Accounts (⟨.read field of n, b⟩ :: h) rc s := by
  have hentries : entriesRead (⟨.read field of n, b⟩ :: h) = entriesRead h := by
    cases field <;> first | rfl | exact absurd rfl hentry
  have hstart : tiffStart (⟨.read field of n, b⟩ :: h) = tiffStart h := by
    cases field <;> first | rfl | exact absurd rfl htiff
  refine ⟨?_, ?_, fun hrc => (ha.settled hrc).behind [_], ha.code⟩
  · rw [thumbOfRead, hentries, hstart]
    exact ha.thumbOf
  · rw [thumbSizeRead, hentries]
    exact ha.thumbSize

theorem Accounts.granted (ha : Accounts h rc s) (length : UInt32) :
    Accounts (⟨.ensureSize length, true⟩ :: h) rc s :=
  ⟨ha.thumbOf, ha.thumbSize, fun hrc => (ha.settled hrc).behind [_], ha.code⟩

/-- A size that is refused before any entry. -/
theorem accounts_refused (length : UInt32) : Accounts [⟨.ensureSize length, false⟩] (-1) .zero where
  thumbOf := rfl
  thumbSize := rfl
  settled _ hof := absurd rfl hof
  code hof := absurd rfl hof

theorem exifStartEntries_accounts
    (hrun : Exec (exifStartEntries of) { ExifParser.zero with exifStart := of } h rc s') :
    Accounts h rc s' := by
  have hcode : rc = if Exif.granted h then 0 else -1 := reports_exifStartEntries _ _ _ _ _ hrun
  have hsettled := fun hrc => exifStartEntries_settled hrun hrc
  have hstart : tiffStart h = of := by
    obtain ⟨order, h₁, rfl, -⟩ := exec_readBeU16_bind.mp hrun
    rfl
  have htracks : Tracks { ExifParser.zero with exifStart := of } h s' := by
    refine obeys_bind (tracks_read (by decide) _ _) (fun order => ?_) _ _ _ _ hrun
    refine obeys_bind (tracks_read (by decide) _ _) fun version => ?_
    refine obeys_bind (tracks_read (by decide) _ _) fun offset => ?_
    refine obeys_bind (tracks_exifParseIfd _) fun r => obeys_ite (obeys_pure _) ?_
    refine obeys_bind (tracks_read (by decide) _ _) fun ifd1 => ?_
    refine obeys_bind (tracks_parseOther _) fun rc => obeys_ite (obeys_pure _) ?_
    exact obeys_bind obeys_get fun c => tracks_parseOther _
  refine ⟨?_, ?_, hsettled, fun _ => hcode⟩
  · rw [htracks.state, applyEntries_thumbOf, thumbOfRead, hstart]
    rfl
  · rw [htracks.state, applyEntries_thumbSize]
    rfl

theorem startExif_accounts (hrun : Exec (startExif of) .zero h rc s') : Accounts h rc s' := by
  obtain ⟨b, h₂, rfl, hthen⟩ := exec_readBytes_bind.mp hrun
  by_cases hb : b.toList = ascii "Exif" ++ [0, 0]
  · rw [if_pos hb, exec_modify_bind] at hthen
    exact (exifStartEntries_accounts hthen).read (by decide) (by decide) b
  · rw [if_neg hb] at hthen
    cases hthen
    exact (accounts_nil _).read (by decide) (by decide) b

theorem exifStart_accounts (hrun : Exec (exifStart of) .zero h rc s') : Accounts h rc s' := by
  obtain ⟨t, h₁, rfl, hrun₁⟩ := exec_readBeU16_bind.mp hrun
  obtain ⟨l, h₂, rfl, hrun₂⟩ := exec_readBeU16_bind.mp hrun₁
  obtain ⟨b, h₃, rfl, hthen⟩ := exec_readBytes_bind.mp hrun₂
  have hexif : Accounts h₃ rc s' := by
    split at hthen
    · exact startExif_accounts hthen
    · exact startExif_accounts hthen
  exact ((hexif.read (by decide) (by decide) b).read (by decide) (by decide) l).read
    (by decide) (by decide) t

theorem startImage_accounts (hrun : Exec (startImage of) .zero h rc s') : Accounts h rc s' := by
  obtain ⟨b0, h₂, rfl, hrun₁⟩ := exec_readBytes_bind.mp hrun
  refine Accounts.read ?_ (by decide) (by decide) b0
  by_cases hb0 : b0.toList = [0xff]
  · rw [if_pos hb0] at hrun₁
    obtain ⟨b1, h₄, rfl, hrun₂⟩ := exec_readBytes_bind.mp hrun₁
    refine Accounts.read ?_ (by decide) (by decide) b1
    by_cases hb1 : b1.toList = [0xd8]
    · rw [if_pos hb1] at hrun₂
      exact exifStart_accounts hrun₂
    · rw [if_neg hb1] at hrun₂
      cases hrun₂
      exact accounts_nil _
  · rw [if_neg hb0] at hrun₁
    cases hrun₁
    exact accounts_nil _

theorem startFile_accounts (hrun : Exec startFile .zero h rc s') : Accounts h rc s' := by
  obtain ⟨magic, h₂, rfl, hrun₁⟩ := exec_readBytes_bind.mp hrun
  refine Accounts.read ?_ (by decide) (by decide) magic
  by_cases hraf : magic.toList = ascii "FUJIFILMCCD-RAW"
  · rw [if_pos hraf] at hrun₁
    obtain ⟨b, h₄, rfl, hrun₂⟩ := exec_readBeU32_bind.mp hrun₁
    refine Accounts.read ?_ (by decide) (by decide) b
    obtain ⟨ok, h₆, rfl, hrun₃⟩ := exec_ensureSize_bind.mp hrun₂
    cases ok with
    | false =>
      cases hrun₃
      exact accounts_refused _
    | true =>
      rw [if_neg (by simp)] at hrun₃
      exact (startImage_accounts hrun₃).granted _
  · rw [if_neg hraf] at hrun₁
    exact startImage_accounts hrun₁

/-- **What is known of every finished run of the reader.** -/
theorem exifStartRaw_accounts (hrun : Exec exifStartRaw s h rc s') : Accounts h rc s' := by
  obtain ⟨ok, h₂, rfl, hthen⟩ := exec_exifStartRaw.mp hrun
  cases ok with
  | false =>
    cases hthen
    exact accounts_refused _
  | true =>
    rw [if_neg (by simp)] at hthen
    exact (startFile_accounts hthen).granted _

end Accounts

/-! ### The range of the thumbnail -/

/-- The length of the buffer before the last call of `ensure_size`. -/
def lengthAtCheck (len : UInt32) (h : ExifHistory) : UInt32 :=
  lengthAfter len (h.rdropWhile fun e => !isCheck e).dropLast

/-- The thumbnail that the entries name ends below 2^32, and it ended inside the buffer before
the last check, or the check could fetch it with 1000 bytes to spare. -/
def RangeKept (len : UInt32) (h : ExifHistory) : Prop :=
  let thumbEnd := (thumbOfRead h).toNat + (thumbSizeRead h).toNat
  thumbEnd < 2 ^ 32 ∧ (thumbEnd ≤ (lengthAtCheck len h).toNat ∨ thumbEnd + 1000 < 2 ^ 32)

instance (len : UInt32) (h : ExifHistory) : Decidable (RangeKept len h) :=
  inferInstanceAs (Decidable (_ ∧ _))

theorem lengthAtCheck_of_split {len : UInt32} {h₁ t : ExifHistory} {length : UInt32} {ok : Bool}
    (ht : ∀ e ∈ t, isCheck e = false) :
    lengthAtCheck len (h₁ ++ ⟨.ensureSize length, ok⟩ :: t) = lengthAfter len h₁ := by
  have hdrop : (h₁ ++ ⟨.ensureSize length, ok⟩ :: t).rdropWhile (fun e => !isCheck e)
      = h₁ ++ [⟨.ensureSize length, ok⟩] := by
    induction t using List.reverseRecOn with
    | nil => exact List.rdropWhile_concat_neg _ _ _ (by simp [isCheck])
    | append_singleton t e ih =>
      have he : isCheck e = false := ht e (by simp)
      rw [← List.cons_append, ← List.append_assoc, List.rdropWhile_concat_pos _ _ _ (by simp [he])]
      exact ih fun e' he' => ht e' (by simp [he'])
  rw [lengthAtCheck, hdrop, List.dropLast_concat]

theorem lengthAfter_reads {len : UInt32} {t : ExifHistory} (ht : ∀ e ∈ t, isCheck e = false) :
    lengthAfter len t = len := by
  induction t with
  | nil => rfl
  | cons e t ih =>
    obtain ⟨he, ht'⟩ := List.forall_mem_cons.mp ht
    rcases e with ⟨_ | _, r⟩
    · cases he
    · exact ih ht'

/-- What a granted check for a sum says about the sum without wrap-around. -/
theorem le_grown_iff (len of size : UInt32) :
    of.toNat + size.toNat ≤ (grown len (of + size) true).toNat ↔
      of.toNat + size.toNat < 2 ^ 32 ∧
        (of.toNat + size.toNat ≤ len.toNat ∨ of.toNat + size.toNat + 1000 < 2 ^ 32) := by
  have hsum : (of + size).toNat = (of.toNat + size.toNat) % 2 ^ 32 := UInt32.toNat_add of size
  have hlen := len.toNat_lt
  rw [grown]
  by_cases hgrow : len < of + size
  · have hlt : len.toNat < (of + size).toNat := UInt32.lt_iff_toNat_lt.mp hgrow
    have hnew : (of + size + 1000).toNat = ((of + size).toNat + 1000) % 2 ^ 32 :=
      UInt32.toNat_add _ _
    rw [if_pos ⟨rfl, hgrow⟩, hnew, hsum]
    omega
  · have hle : (of + size).toNat ≤ len.toNat := not_lt.mp (mt UInt32.lt_iff_toNat_lt.mpr hgrow)
    rw [if_neg fun h => hgrow h.2]
    omega

/-- **When the thumbnail of a run without an error lies inside the final length.** -/
theorem thumb_le_length_iff {get : GetMore} {c c' : Buffer} {s s' : ExifParser} {h : ExifHistory}
    (hrun : Exec exifStartRaw s h 0 s') (hbuf : Follows get c h c') (hof : s'.thumbOf ≠ 0)
    (hsize : s'.thumbSize ≠ 0) :
    s'.thumbOf.toNat + s'.thumbSize.toNat ≤ c'.length.toNat ↔ RangeKept c.length h := by
  have ha := exifStartRaw_accounts hrun
  rw [RangeKept, ← ha.thumbOf, ← ha.thumbSize]
  obtain ⟨h₁, t, rfl, ht⟩ := ha.settled (by decide) hof hsize
  rw [hbuf.length_eq, lengthAtCheck_of_split ht, lengthAfter_append, lengthAfter,
    lengthAfter_reads ht]
  exact le_grown_iff _ _ _

end Exif

open Exif

/-! ### What `ptp_get_partial_exif` makes of it -/

/-- A range of a thumbnail has been reported. -/
def Reported (out : Rc × UInt32 × UInt32) : Prop := out.2.1 ≠ 0 ∧ out.2.2 ≠ 0

/-- In the run of `locateThumb` with the history `h`, `exif_start_raw` has gone through the
history `g` and returned `rc`. -/
def ReaderRan (handle : Int) (s : PtpRuntime) (h : History) (g : ExifHistory) (rc : Int)
    (c : ExifParser) (s' : PtpRuntime) : Prop :=
  ∃ (h₁ h₂ : History) (s₁ : PtpRuntime) (r : Resp (.getPartialObject handle 0 0x4000)),
    Exec fujiGetEvents s h₁ .ok s₁ ∧ r.rc = .ok ∧ Exec exifStartRaw .zero g rc c ∧
      Served (exifHandler handle) ⟨Memory.malloc.memcpy 0 r.payload, UInt32.ofNat r.payload.length⟩
        (s₁.answered r.payload) g h₂ s' ∧
      h = h₁ ++ ⟨.ptp (.getPartialObject handle 0 0x4000), r⟩ :: h₂

/-- In the run of `ptp_get_partial_exif` with the history `h`, `exif_start_raw` has gone through
the history `g` and returned `rc`. -/
def ExifReturned (handle : Int) (s : PtpRuntime) (h : History) (g : ExifHistory) (rc : Int) :
    Prop :=
  ∃ h₁ c s₁ t, ReaderRan handle s h₁ g rc c s₁ ∧ h = ⟨.mutexLock, ()⟩ :: (h₁ ++ t)

/-- The camera has refused more of the object when the entries read so far had named a
thumbnail. -/
def CutShort (handle : Int) (s : PtpRuntime) (h : History) : Prop :=
  ∃ g rc, ExifReturned handle s h g rc ∧ granted g = false ∧ thumbOfRead g ≠ 0 ∧
    thumbSizeRead g ≠ 0

section Report

variable {handle : Int} {s s' : PtpRuntime} {h : History}

/-- `locateThumb` goes by the two members that the reader leaves. -/
theorem ReaderRan.exec_locateThumb {g : ExifHistory} {rc : Int} {c : ExifParser}
    (hran : ReaderRan handle s h g rc c s') (hof : c.thumbOf ≠ 0) (hsize : c.thumbSize ≠ 0) :
    Exec (locateThumb handle) s h (.ok, c.thumbOf, c.thumbSize) s' := by
  obtain ⟨h₁, h₂, s₁, r, hpoll, hr, hexif, hserved, rfl⟩ := hran
  have hinterp := exec_interp_iff.mpr ⟨g, hexif, hserved⟩
  have hrun : Exec (locateThumb handle) s _ (.ok, c.thumbOf, c.thumbSize) s' :=
    exec_bind hpoll <| exec_ite_neg (by simp) <| exec_bind (exec_transact r) <|
      exec_ite_neg (by simp [hr]) <| exec_ite_neg (by simp [hr]) <| exec_bind exec_get <|
      exec_bind hinterp <| exec_ite_neg (by simp [hof, hsize]) <| exec_pure _
  simpa using hrun

theorem ReaderRan.accounts {g : ExifHistory} {rc : Int} {c : ExifParser}
    (hran : ReaderRan handle s h g rc c s') : Accounts g rc c := by
  obtain ⟨-, -, -, -, -, -, hexif, -⟩ := hran
  exact exifStartRaw_accounts hexif

/-- Without a success nothing is reported; a success is that of a reader. -/
theorem locateThumb_cases {out : Rc × UInt32 × UInt32} (hrun : Exec (locateThumb handle) s h out s') :
    out.1 ≠ .ok ∧ out.2 = (0, 0) ∨
      ∃ g rc c, ReaderRan handle s h g rc c s' ∧ c.thumbOf ≠ 0 ∧ c.thumbSize ≠ 0 ∧
        out = (.ok, c.thumbOf, c.thumbSize) := by
  obtain ⟨h₁, rc₁, s₁, h₂, rfl, hpoll, hrun₁⟩ := exec_of_bind hrun
  by_cases hrc₁ : rc₁ ≠ .ok
  · rw [if_pos hrc₁] at hrun₁
    cases hrun₁
    exact .inl ⟨hrc₁, rfl⟩
  obtain rfl : rc₁ = .ok := not_not.mp hrc₁
  rw [if_neg hrc₁, exec_transact_bind] at hrun₁
  obtain ⟨r, h₃, rfl, hrun₂⟩ := hrun₁
  by_cases hcheck : r.rc = .checkCode
  · rw [if_pos hcheck] at hrun₂
    cases hrun₂
    exact .inl ⟨by simp, rfl⟩
  rw [if_neg hcheck] at hrun₂
  by_cases hr : r.rc ≠ .ok
  · rw [if_pos hr] at hrun₂
    cases hrun₂
    exact .inl ⟨hr, rfl⟩
  rw [if_neg hr, exec_get_bind] at hrun₂
  obtain ⟨h₄, exif, s₂, h₅, rfl, hinterp, hrun₃⟩ := exec_of_bind hrun₂
  obtain ⟨g, hg, hserved⟩ := exec_interp_iff.mp hinterp
  by_cases hnone : exif.2.thumbOf = 0 ∨ exif.2.thumbSize = 0
  · rw [if_pos hnone] at hrun₃
    cases hrun₃
    exact .inl ⟨by simp, rfl⟩
  · rw [if_neg hnone] at hrun₃
    cases hrun₃
    rw [not_or] at hnone
    refine .inr ⟨g, exif.1, exif.2, ?_, hnone.1, hnone.2, rfl⟩
    rw [List.append_nil]
    exact ⟨h₁, h₄, s₁, r, hpoll, not_not.mp hr, hg, hserved, rfl⟩

/-- What the camera answers determines the return value of the reader. -/
theorem ReaderRan.unique {h' t t' : History} {g g' : ExifHistory} {rc rc' : Int} {c c' : ExifParser}
    {s₁ s₁' : PtpRuntime} (hran : ReaderRan handle s h g rc c s₁)
    (hran' : ReaderRan handle s h' g' rc' c' s₁') (heq : h ++ t = h' ++ t') : rc = rc' := by
  obtain ⟨h₁, h₂, s₂, r, hpoll, -, hexif, hserved, rfl⟩ := hran
  obtain ⟨h₁', h₂', s₂', r', hpoll', -, hexif', hserved', rfl⟩ := hran'
  rw [List.append_assoc, List.append_assoc] at heq
  obtain ⟨rfl, hstate⟩ := Prog.Runs.unique hpoll hpoll' heq
  obtain ⟨-, rfl⟩ := Prod.mk.inj hstate
  obtain ⟨hev, hrest⟩ := List.cons.inj (List.append_cancel_left heq)
  obtain rfl : r = r' := eq_of_heq (Sigma.mk.inj hev).2
  have hinterp := exec_interp_iff.mpr ⟨g, hexif, hserved⟩
  have hinterp' := exec_interp_iff.mpr ⟨g', hexif', hserved'⟩
  obtain ⟨-, hout⟩ := Prog.Runs.unique hinterp hinterp' hrest
  exact (Prod.mk.inj (Prod.mk.inj hout).1).1

/-- **When a reported range is one of a reader that has succeeded.** -/
theorem reported_iff {out : Rc × UInt32 × UInt32} (hrun : Exec (ptpGetPartialExif handle) s h out s') :
    (Reported out → ∃ g, ExifReturned handle s h g 0) ↔ ¬ CutShort handle s h := by
  obtain ⟨h₁, _, s₁, h₂, rfl, hlock, hrun₁⟩ := exec_of_bind hrun
  rcases hlock with _ | ⟨a, ⟨⟩⟩
  obtain ⟨h₃, r, s₂, h₄, rfl, hlocate, hrun₂⟩ := exec_of_bind hrun₁
  have hout : out.2 = r.2 := by
    by_cases hr : r.1 ≠ .ok
    · rw [if_pos hr] at hrun₂
      obtain ⟨h₅, _, s₃, h₆, rfl, -, hret⟩ := exec_of_bind hrun₂
      cases hret
      rfl
    · rw [if_neg hr] at hrun₂
      obtain ⟨h₅, rc, s₃, h₆, rfl, -, hrun₃⟩ := exec_of_bind hrun₂
      obtain ⟨h₇, _, s₄, h₈, rfl, -, hret⟩ := exec_of_bind hrun₃
      cases hret
      rfl
  rcases locateThumb_cases hlocate with ⟨hfail, hzero⟩ | ⟨g, rc, c, hran, hof, hsize, rfl⟩
  -- without a thumbnail nothing is reported, and nothing was cut short
  · refine iff_of_true (fun hrep => absurd (hout.trans hzero) fun h0 => hrep.1 (by rw [h0])) ?_
    rintro ⟨g, rc, ⟨t₁, c, s₃, t, hran, heq⟩, -, hof, hsize⟩
    have ha := hran.accounts
    have hlocate' := hran.exec_locateThumb (ha.thumbOf ▸ hof) (ha.thumbSize ▸ hsize)
    obtain ⟨-, hsame⟩ := Prog.Runs.unique hlocate hlocate' (List.cons.inj heq).2
    exact hfail (congrArg (·.1.1) hsame)
  · have ha := hran.accounts
    have hreturned : ExifReturned handle s (⟨.mutexLock, ()⟩ :: (h₃ ++ h₄)) g rc :=
      ⟨h₃, c, s₂, h₄, hran, rfl⟩
    have hrep : Reported out := by
      rw [Reported, hout]
      exact ⟨hof, hsize⟩
    have hcode := ha.code hof
    by_cases hgranted : granted g = true
    · rw [if_pos hgranted] at hcode
      subst hcode
      refine iff_of_true (fun _ => ⟨g, hreturned⟩) ?_
      rintro ⟨g', rc', ⟨t₁, c', s₃, t, hran', heq⟩, hrefused, hof', -⟩
      have ha' := hran'.accounts
      have hcode' := ha'.code (ha'.thumbOf ▸ hof')
      rw [hrefused] at hcode'
      have hsame := hran.unique hran' (List.cons.inj heq).2
      simp [hcode'] at hsame
    · rw [if_neg hgranted] at hcode
      subst hcode
      refine iff_of_false (fun hall => ?_) (not_not.mpr ?_)
      · obtain ⟨g', t₁, c', s₃, t, hran', heq⟩ := hall hrep
        have hsame := hran.unique hran' (List.cons.inj heq).2
        omega
      · exact ⟨g, -1, hreturned, by simpa using hgranted, ha.thumbOf ▸ hof, ha.thumbSize ▸ hsize⟩

end Report

/-- **When the reported range is what it seems to be.**  The sum of offset and size is at most
the final length of the parser just if the entries keep their range, and the report is one of
a reader that has succeeded just if the camera has not cut it short. -/
theorem thumb_range_iff (get : GetMore) (c : Buffer) (handle : Int) (s : PtpRuntime) :
    (∀ (c' : Buffer) (p p' : ExifParser) (h : ExifHistory),
      Exec exifStartRaw p h 0 p' → Follows get c h c' → p'.thumbOf ≠ 0 → p'.thumbSize ≠ 0 →
        (p'.thumbOf.toNat + p'.thumbSize.toNat ≤ c'.length.toNat ↔ RangeKept c.length h)) ∧
      ∀ (s' : PtpRuntime) (h : History) (out : Rc × UInt32 × UInt32),
        Exec (ptpGetPartialExif handle) s h out s' →
          ((Reported out → ∃ g, ExifReturned handle s h g 0) ↔ ¬ CutShort handle s h) := by
  constructor
  · intro c' p p' h hrun hbuf hof hsize
    exact thumb_le_length_iff hrun hbuf hof hsize
  · intro s' h out hrun
    exact reported_iff hrun

/-! ### Two files -/

/-- An Exif header of 100 bytes with a thumbnail of a given size at the offset 28. -/
def thumbJpeg (size : ℕ) : List UInt8 :=
  [0xff, 0xd8, 0xff, 0xe1, 0x00, 0x60] ++ ascii "Exif" ++ [0, 0]
    ++ [0x49, 0x49, 0x2a, 0x00, 0x08, 0x00, 0x00, 0x00] ++ leBytes 2 2
    ++ IfdEntry.encode ⟨0x0201, 4, 1, 0x10⟩ ++ IfdEntry.encode ⟨0x0202, 4, 1, UInt32.ofNat size⟩
    ++ leBytes 4 0 ++ List.replicate 50 0

/-- The run of the reader on such a file without a callback. -/
theorem thumbJpeg_run (size : ℕ) (rc : Int)
    (hcheck : ((exifStartRaw ExifParser.zero).trace (fileOracle (thumbJpeg size))).map
      (fun r => (r.2.1, r.2.2.thumbOf, r.2.2.thumbSize)) = some (rc, 28, UInt32.ofNat size)) :
    ∃ h s, Exec exifStartRaw .zero h rc s ∧ Follows .null ⟨thumbJpeg size, 100⟩ h ⟨thumbJpeg size, 100⟩ ∧
      s.thumbOf = 28 ∧ s.thumbSize = UInt32.ofNat size := by
  obtain ⟨⟨h, rc', s⟩, htrace, hout⟩ := Option.map_eq_some_iff.mp hcheck
  obtain ⟨rfl, hof, hsize⟩ : rc' = rc ∧ s.thumbOf = 28 ∧ s.thumbSize = UInt32.ofNat size := by
    simpa using hout
  obtain ⟨hrun, hans⟩ := Prog.runs_of_trace htrace
  refine ⟨h, s, hrun, follows_fileOracle ?_ hans, hof, hsize⟩
  simp [thumbJpeg, ascii, IfdEntry.encode_length]

/-- The end of the thumbnail is 28 + 4294967295, which is 27 in 32 bits. -/
theorem thumb_range_wraps : ¬ ∀ (get : GetMore) (c c' : Buffer) (s s' : ExifParser)
    (h : ExifHistory), Exec exifStartRaw s h 0 s' → Follows get c h c' → s'.thumbOf ≠ 0 →
      s'.thumbSize ≠ 0 → s'.thumbOf.toNat + s'.thumbSize.toNat ≤ c'.length.toNat := by
  intro hall
  obtain ⟨h, s, hrun, hbuf, hof, hsize⟩ := thumbJpeg_run 4294967295 0 (by decide +kernel)
  have hle := hall .null _ _ .zero s h hrun hbuf (by rw [hof]; decide) (by rw [hsize]; decide)
  rw [hof, hsize] at hle
  exact absurd hle (by decide +kernel)

instance (file : List UInt8) (op : ExifOp) : Decidable (Inside file op) :=
  match op with
  | .ensureSize _ => inferInstanceAs (Decidable (_ ≤ _))
  | .read _ _ _ => inferInstanceAs (Decidable (_ ≤ _))

/-- A camera that sends no more than the first 100 bytes still answers every run inside them. -/
theorem served_refusing {file : List UInt8} (hfile : file.length < 2 ^ 32) (handle : Int)
    {g : ExifHistory} (hans : ∀ e ∈ g, e.2 = fileOracle file e.1)
    (hin : ∀ e ∈ g, isCheck e = false → Inside file e.1) (s : PtpRuntime) :
    ∃ h s', Served (exifHandler handle)
      ⟨Memory.malloc.memcpy 0 file, UInt32.ofNat file.length⟩ s g h s' := by
  induction g generalizing s with
  | nil => exact ⟨[], s, .nil _ _⟩
  | cons e g ih =>
    obtain ⟨he, hans'⟩ := List.forall_mem_cons.mp hans
    obtain ⟨hine, hin'⟩ := List.forall_mem_cons.mp hin
    by_cases hinside : Inside file e.1
    · have hon : OnFile file [e] := by
        intro e' he'
        rw [List.mem_singleton.mp he']
        exact ⟨he, hinside⟩
      have hret := @exifHandler_onFile handle s file hfile [e] hon e (by simp)
      obtain ⟨h, s', hserved⟩ := ih hans' hin' s
      exact ⟨[] ++ h, s', .cons (exec_of_ret hret) hserved⟩
    -- a size that the file does not have
    · obtain ⟨length | ⟨field, of, n⟩, r⟩ := e
      · have hlarge : length > UInt32.ofNat file.length := by
          refine UInt32.lt_iff_toNat_lt.mpr ?_
          rw [UInt32.toNat_ofNat_of_lt' hfile]
          exact not_le.mp hinside
        obtain rfl : r = false := by
          have hr : r = decide (length.toNat ≤ file.length) := he
          rw [hr]
          exact decide_eq_false hinside
        obtain ⟨h, s', hserved⟩ := ih hans' hin' (s.answered [])
        have hop : Exec (exifHandler handle (.ensureSize length)
            ⟨Memory.malloc.memcpy 0 file, UInt32.ofNat file.length⟩) s _
            (false, ⟨Memory.malloc.memcpy 0 file, UInt32.ofNat file.length⟩) (s.answered []) :=
          exec_ite_pos hlarge <| exec_bind (exec_bind (exec_transact ⟨.checkCode, [], ()⟩) <|
            exec_ite_pos (by simp) (exec_pure none)) (exec_pure _)
        exact ⟨_, s', .cons hop hserved⟩
      · exact absurd (hine rfl) hinside

/-- The camera refuses the thumbnail of 4096 bytes, and its range is reported. -/
theorem thumb_range_cut_short : ¬ ∀ (handle : Int) (s s' : PtpRuntime) (h : History)
    (out : Rc × UInt32 × UInt32), Exec (ptpGetPartialExif handle) s h out s' → Reported out →
      ∃ g, ExifReturned handle s h g 0 := by
  intro hall
  have hcheck : ((exifStartRaw ExifParser.zero).trace (fileOracle (thumbJpeg 4096))).map
      (fun r => (r.2, r.1.all fun e => isCheck e || decide (Inside (thumbJpeg 4096) e.1)))
      = some ((-1, ⟨12, 0, 28, 4096⟩), true) := by decide +kernel
  obtain ⟨⟨g, rc, c⟩, htrace, hout⟩ := Option.map_eq_some_iff.mp hcheck
  obtain ⟨hres, hin⟩ := Prod.mk.inj hout
  obtain ⟨rfl, rfl⟩ := Prod.mk.inj hres
  obtain ⟨hexif, hans⟩ := Prog.runs_of_trace htrace
  have hin' : ∀ e ∈ g, isCheck e = false → Inside (thumbJpeg 4096) e.1 := by
    intro e he hcheck
    simpa [hcheck] using List.all_eq_true.mp hin e he
  let s := autosaveRuntime
  let r : Resp (.getPartialObject 7 0 0x4000) := ⟨.ok, thumbJpeg 4096, ()⟩
  obtain ⟨h₁, hpoll, -⟩ := fujiGetEvents_run_none s
  obtain ⟨h₂, s₂, hserved⟩ := served_refusing (by decide +kernel) 7 hans hin'
    ((s.answered []).answered r.payload)
  have hran : ReaderRan 7 s _ g (-1) ⟨12, 0, 28, 4096⟩ s₂ :=
    ⟨h₁, h₂, s.answered [], r, hpoll, rfl, hexif, hserved, rfl⟩
  have hlocate := hran.exec_locateThumb (by decide) (by decide)
  obtain ⟨h₃, s₃, hsettle, -⟩ := settle_run s₂
  have hrun : Exec (ptpGetPartialExif 7) s _ (.ok, 28, 4096) s₃ :=
    exec_bind (@exec_ask s .mutexLock ()) <| exec_bind hlocate <| exec_ite_neg (by simp) <|
      exec_bind hsettle <| exec_bind (@exec_ask s₃ .mutexUnlock ()) (exec_pure _)
  obtain ⟨g', h', c', s', t, hran', heq⟩ := hall 7 s s₃ _ _ hrun ⟨by decide, by decide⟩
  have hsame := hran.unique hran' (List.cons.inj heq).2
  omega

/-- Neither half holds of every file. -/
theorem thumb_range_fails :
    (¬ ∀ (get : GetMore) (c c' : Buffer) (s s' : ExifParser) (h : ExifHistory),
      Exec exifStartRaw s h 0 s' → Follows get c h c' → s'.thumbOf ≠ 0 → s'.thumbSize ≠ 0 →
        s'.thumbOf.toNat + s'.thumbSize.toNat ≤ c'.length.toNat) ∧
      ¬ ∀ (handle : Int) (s s' : PtpRuntime) (h : History) (out : Rc × UInt32 × UInt32),
        Exec (ptpGetPartialExif handle) s h out s' → Reported out →
          ∃ g, ExifReturned handle s h g 0 :=
  ⟨thumb_range_wraps, thumb_range_cut_short⟩

/-- A thumbnail of 40 bytes inside its file, and one that a camera has sent as a whole. -/
theorem thumb_range_inside :
    (∃ h s, Exec exifStartRaw .zero h 0 s ∧ s.thumbSize = 40 ∧ RangeKept 100 h) ∧
      ∃ h s' out, Exec (ptpGetPartialExif 7) autosaveRuntime h out s' ∧ Reported out ∧
        ¬ CutShort 7 autosaveRuntime h := by
  constructor
  · obtain ⟨h, s, hrun, hbuf, hof, hsize⟩ := thumbJpeg_run 40 0 (by decide +kernel)
    have hrange := (thumb_range_iff .null ⟨thumbJpeg 40, 100⟩ 7 autosaveRuntime).1
    refine ⟨h, s, hrun, hsize, (hrange _ .zero s h hrun hbuf ?_ ?_).mp ?_⟩
    · rw [hof]
      decide
    · rw [hsize]
      decide
    · rw [hof, hsize]
      decide
  · have hof : smallJpeg.atEnd.thumbOf ≠ 0 := by decide +kernel
    have hsize : smallJpeg.atEnd.thumbSize ≠ 0 := by decide +kernel
    obtain ⟨g, hexif, hon⟩ := smallJpeg.fileRun_exifStartRaw ExifParser.zero
    let s := autosaveRuntime
    let r : Resp (.getPartialObject 7 0 0x4000) := ⟨.ok, smallJpeg.file, ()⟩
    obtain ⟨h₁, hpoll, -⟩ := fujiGetEvents_run_none s
    obtain ⟨h₂, s₂, hserved⟩ := served_refusing smallJpeg.length_lt 7 (fun e he => (hon e he).1)
      (fun e he _ => (hon e he).2) ((s.answered []).answered r.payload)
    have hran : ReaderRan 7 s _ g 0 smallJpeg.atEnd s₂ :=
      ⟨h₁, h₂, s.answered [], r, hpoll, rfl, hexif, hserved, rfl⟩
    have hlocate := hran.exec_locateThumb hof hsize
    obtain ⟨h₃, s₃, hsettle, -⟩ := settle_run s₂
    have hrun : Exec (ptpGetPartialExif 7) s _ (.ok, smallJpeg.atEnd.thumbOf,
        smallJpeg.atEnd.thumbSize) s₃ :=
      exec_bind (@exec_ask s .mutexLock ()) <| exec_bind hlocate <| exec_ite_neg (by simp) <|
        exec_bind hsettle <| exec_bind (@exec_ask s₃ .mutexUnlock ()) (exec_pure _)
    have hreport := (thumb_range_iff .null ⟨thumbJpeg 40, 100⟩ 7 autosaveRuntime).2
    exact ⟨_, s₃, _, hrun, ⟨hof, hsize⟩, (hreport s₃ _ _ hrun).mp fun _ =>
      ⟨g, _, smallJpeg.atEnd, s₂, _, hran, rfl⟩⟩

end Fuji
