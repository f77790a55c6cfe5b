/-
Merging a profile file into the profile of a camera.

`fpParseFp1_word` bounds the members of a profile that was read from a file, and
`decoded_setting` those of one that was decoded from a blob.  Two results rest on them:

* `merge_encodable`, `merge_sendable_iff` — when the merged profile can be sent to the
  camera;
* `merge_unspecified` — what becomes of a member the file says nothing about.
-/
import LibFuji.D185RoundTrip
import LibFuji.XmlOrder

namespace Fuji

open Assignments ByteCodec D185

/-! ### Profiles read from a file -/

namespace Xml

theorem siblings_nodup (es : List Element) : ((siblings es).map Element.name).Nodup := by
  induction es with
  | nil => exact List.nodup_nil
  | cons e es ih =>
    rw [siblings, List.map_cons, List.nodup_cons]
    refine ⟨fun h => ?_, (List.filter_sublist.map _).nodup ih⟩
    obtain ⟨e', he', hname⟩ := List.mem_map.mp h
    have hne := (List.mem_filter.mp he').2
    simp [hname] at hne

/-- The IOP code of a file that is accepted is the one its elements give. -/
theorem fpParseFp1_iopCode {xml : Option Document} {fp x : FujiProfile}
    (h : fpParseFp1 xml fp = some (0, x)) : ∃ d version es, xml = some d ∧
      fileHead d = some (version, es) ∧ x.word .iopCode = fileCode (siblings es) ∧
      x = ((versioned version).assign (allWrites (x.word .iopCode) (siblings es))).assign
        (overlapWrites ((versioned version).assign
          (allWrites (x.word .iopCode) (siblings es)))) := by
  obtain ⟨d, version, es, ws, rfl, hhead, hws, rfl⟩ := fpParseFp1_accepts_iff.mp h
  obtain ⟨-, rfl⟩ := fileWrites_eq_some (siblings_nodup es) hws
  have hcode : (((versioned version).assign (allWrites (fileCode (siblings es))
      (siblings es))).assign (overlapWrites ((versioned version).assign
        (allWrites (fileCode (siblings es)) (siblings es))))).word .iopCode
      = fileCode (siblings es) := by
    rw [assign_overlapWrites_word (fun _ v => by simp [wbValues]) fun v => by simp [otherValues],
      FujiProfile.assign_word]
    exact fileCode_eq (siblings_nodup es) _
  refine ⟨d, version, es, rfl, hhead, hcode, ?_⟩
  rw [hcode]

/-- **A member of a profile read from a file** is 0, a value an element stores, or a value
of the sanitizer. -/
theorem fpParseFp1_word {xml : Option Document} {fp x : FujiProfile}
    (h : fpParseFp1 xml fp = some (0, x)) (f : FpField) :
    x.word f = 0 ∨ Stores (x.word .iopCode) (x.word f) f ∨ (f, x.word f) ∈ wbValues ∨
      (f, x.word f) ∈ otherValues := by
  obtain ⟨d, version, es, -, -, -, hx⟩ := fpParseFp1_iopCode h
  generalize hstored : (versioned version).assign (allWrites (x.word .iopCode) (siblings es))
    = stored at hx
  rcases hl : last (overlapWrites stored) f with _ | v
  -- the sanitizer leaves the member as the elements left it
  · have hword : x.word f = stored.word f := by
      rw [hx, FujiProfile.assign_word, hl, Option.getD_none]
    rcases hl' : last (allWrites (x.word .iopCode) (siblings es)) f with _ | v
    · left
      rw [hword, ← hstored, FujiProfile.assign_word, hl', Option.getD_none]
      rfl
    · right; left
      obtain ⟨e, -, hv⟩ := mem_allWrites.mp (last_mem hl')
      rw [hword, ← hstored, FujiProfile.assign_word, hl', Option.getD_some]
      exact (mem_storedBy hv).2.2
  · have hword : x.word f = v := by
      rw [hx, FujiProfile.assign_word, hl, Option.getD_some]
    rw [hword]
    exact .inr (.inr ((mem_overlapWrites (last_mem hl)).imp And.right id))

end Xml

/-! ### Profiles decoded from a blob -/

namespace D185

theorem decoded_setting {bin : List UInt8} (hfmt : Format bin 9) {i : ℕ} {f : FpField}
    {tbl : UInt32 → List FujiLookup} (hs : layout[i]? = some (.setting f tbl)) :
    (decoded bin).word f = 0 ∨
      (decoded bin).word f ∈ FujiLookup.values (tbl ((decoded bin).word .iopCode)) := by
  have hw : (decoded bin).word f = _ := decoded_word hs (List.mem_singleton.mpr rfl)
  rw [hw, decoded_iopCode hfmt.count]
  by_cases hi : i < nPropsOf bin
  · rw [if_pos hi]
    exact hfmt.words i _ hi hs
  · rw [if_neg hi]
    exact .inl rfl

/-- A leftover of `value` that the decoder takes for a slot. -/
def Slot.LeftoverOk (p : FujiProfile) (v : UInt32) : Slot → Prop
  | setting _ tbl => v = 0 ∨ v ∈ FujiLookup.values (tbl (p.word .iopCode))
  | grain => v + p.word .grainEffectSize ≤ 5
  | reserved => True

theorem grain_le {e z : UInt32} (he : e ∈ FujiLookup.values fpGrainEffect)
    (hz : z = 0 ∨ z ∈ FujiLookup.values fpGrainEffectSize) : e + z ≤ 5 := by
  simp only [FujiLookup.values, fpGrainEffect, fpGrainEffectSize, List.map_cons, List.map_nil,
    List.mem_cons, List.not_mem_nil, or_false] at he hz
  rcases he with rfl | rfl | rfl <;> rcases hz with rfl | rfl | rfl <;> decide

/-- The decoder takes what is packed for a slot unless an improper leftover went in. -/
theorem Slot.Fits.admits_packed_iff {p : FujiProfile} {v : UInt32} {s : Slot} (h : s.Fits p) :
    s.Admits (p.word .iopCode) (s.packed p v) ↔ (s.Unwritten p → s.LeftoverOk p v) := by
  by_cases hu : s.Unwritten p
  · simp only [hu, true_imp_iff]
    cases s with
    | setting f tbl => rw [packed, if_pos hu]; rfl
    | grain =>
      have h0 : p.word .grainEffect = 0 := hu
      rw [packed, if_pos h0]
      rfl
    | reserved => exact hu.elim
  · rw [packed_of_not_unwritten hu]
    refine iff_of_true ?_ fun hu' => absurd hu' hu
    cases s with
    | setting f tbl => exact h
    | grain =>
      have h0 : p.word .grainEffect ≠ 0 := hu
      exact grain_le (h.1.resolve_left h0) h.2
    | reserved => trivial

/-- The decoder takes what the encoder has made unless an improper leftover went in. -/
theorem parse_created_iff {p : FujiProfile} (henc : Encodable p) (u : Uninit)
    (fp : FujiProfile) :
    (∃ q, fpParseD185 (assemble (p.word .iopCode) (packedWords p u)) fp = some (0, q)) ↔
      ∀ (i : ℕ) (s : Slot), layout[i]? = some s → s.Unwritten p → s.LeftoverOk p (u.value i) := by
  have hword : ∀ {i : ℕ} {s : Slot}, layout[i]? = some s →
      (packedWords p u)[i]? = some (s.packed p (u.value i)) := by
    intro i s hs
    rw [packedWords_getElem?, hs, Option.map_some]
  simp only [fpParseD185_eq_iff, exists_and_left, exists_eq, and_true]
  constructor
  · intro hfmt i s hs
    have hadm := hfmt.words i s (by rw [nPropsOf_assemble]; exact lt_of_layout hs) hs
    rw [iopCodeOf_assemble, wordAt_assemble _ _ (hword hs)] at hadm
    exact (henc s (List.mem_of_getElem? hs)).admits_packed_iff.mp hadm
  · intro h
    refine (format_assemble fun i s hs => ⟨_, hword hs, ?_⟩).mono (by norm_num)
    exact (henc s (List.mem_of_getElem? hs)).admits_packed_iff.mpr (h i s hs)

end D185

/-! ### The merged profile -/

/-- The values of a file's members that the encoder takes: the WB shifts are not scaled to
its tables, the DR800 of an HDR setting and the higher priorities are not in them, and the
two monochrome settings of a file are arbitrary numbers. -/
def Mergeable (v : UInt32) : FpField → Prop
  | .dynamicRange => v ≠ 800
  | .wideDRange => v ≤ 3
  | .wbShiftR => v = 0 ∨ v = 10 ∨ v = -10
  | .blackImageTone => v ∈ FujiLookup.values fpRangeMonoShiftWarmCold
  | .monochromaticColorRG => v ∈ FujiLookup.values fpRangeMonoGreenMagenta
  | _ => True

/-- The values a member of an accepted file can have. -/
def FromFile (iop v : UInt32) (f : FpField) : Prop :=
  v = 0 ∨ Xml.Stores iop v f ∨ (f, v) ∈ Xml.wbValues ∨ (f, v) ∈ Xml.otherValues

theorem listed_of_fromFile {iop v : UInt32} {f : FpField} {vs : List UInt32}
    (h : FromFile iop v f) (hstores : Xml.Stores iop v f → v = 0 ∨ v ∈ vs)
    (hwb : ∀ w, (f, w) ∈ Xml.wbValues → w = 0 ∨ w ∈ vs)
    (hother : ∀ w, (f, w) ∈ Xml.otherValues → w = 0 ∨ w ∈ vs) : v = 0 ∨ v ∈ vs := by
  rcases h with h | h | h | h
  · exact .inl h
  · exact hstores h
  · exact hwb v h
  · exact hother v h

theorem isWbShift_mem_iff {v : UInt32} (h : v = 0 ∨ Xml.isWbShift v = true) :
    (v = 0 ∨ v ∈ FujiLookup.values fpRangeWbShift) ↔ v = 0 ∨ v = 10 ∨ v = -10 := by
  constructor
  · rintro (rfl | hv)
    · exact .inl rfl
    · simp only [FujiLookup.values, fpRangeWbShift, List.map_cons, List.map_nil, List.mem_cons,
        List.not_mem_nil, or_false] at hv
      rcases hv with rfl | rfl | rfl | rfl | rfl | rfl | rfl | rfl | rfl | rfl | rfl | rfl | rfl |
        rfl | rfl | rfl | rfl | rfl | rfl <;> revert h <;> decide
  · rintro (rfl | rfl | rfl) <;> decide

theorem dynamicRange_fits_iff {iop v : UInt32} (h : FromFile iop v .dynamicRange) :
    (v = 0 ∨ v ∈ FujiLookup.values fpDrange) ↔ v ≠ 800 := by
  have hv : v = 0 ∨ v = 100 ∨ v = 200 ∨ v = 400 ∨ v = 800 := by
    rcases h with h | h | h | h
    · exact .inl h
    · have h' : v = 100 ∨ v = 200 ∨ v = 400 := h
      tauto
    · simp [Xml.wbValues] at h
    · simp [Xml.otherValues] at h
      tauto
  rcases hv with rfl | rfl | rfl | rfl | rfl <;> decide

theorem wideDRange_fits_iff {v : UInt32} :
    (v = 0 ∨ v ∈ FujiLookup.values fpDrangePriority) ↔ v ≤ 3 := by
  simp only [FujiLookup.values, fpDrangePriority, List.map_cons, List.map_nil, List.mem_cons,
    List.not_mem_nil, or_false]
  grind

theorem wbShiftR_fits_iff {iop v : UInt32} (h : FromFile iop v .wbShiftR) :
    (v = 0 ∨ v ∈ FujiLookup.values fpRangeWbShift) ↔ v = 0 ∨ v = 10 ∨ v = -10 := by
  refine isWbShift_mem_iff ?_
  rcases h with h | h | h | h
  · exact .inl h
  · exact .inr h
  · exact .inl (by simpa [Xml.wbValues] using h)
  · simp [Xml.otherValues] at h

/-- **What the encoder takes of a file**, slot by slot. -/
theorem setting_fits_iff {i : ℕ} {f : FpField} {tbl : UInt32 → List FujiLookup}
    (hs : layout[i]? = some (.setting f tbl)) (hf : f ∈ mergedFields) {iop v : UInt32}
    (h : FromFile iop v f) :
    (v = 0 ∨ v ∈ FujiLookup.values (tbl iop)) ↔ Mergeable v f := by
  have hi := lt_of_layout hs
  interval_cases i <;> cases hs <;> beta_reduce
  case «5» => exact dynamicRange_fits_iff h
  case «6» => exact wideDRange_fits_iff
  case «12» => exact wbShiftR_fits_iff h
  -- the tables of the monochrome settings list 0
  case «22» => exact or_iff_right_of_imp (by rintro rfl; decide)
  case «25» => exact or_iff_right_of_imp (by rintro rfl; decide)
  -- no element stores the shooting condition and the second shift
  case «0» | «13» =>
    exact iff_of_true (listed_of_fromFile h False.elim (by simp [Xml.wbValues])
      (by simp [Xml.otherValues])) trivial
  case «10» =>
    refine iff_of_true (listed_of_fromFile h (fun hon => ?_) (by simp [Xml.wbValues])
      (by simp [Xml.otherValues])) trivial
    have hv : v = 1 ∨ v = 0 := by simpa [Xml.Stores, FujiLookup.values, fpOnOff] using hon
    rcases hv with rfl | rfl <;> decide
  case «11» =>
    refine iff_of_true (listed_of_fromFile h .inr (fun w hw => ?_)
      (by simp [Xml.otherValues])) trivial
    obtain rfl : w = 1 := by simpa [Xml.wbValues] using hw
    exact .inr (by decide)
  all_goals first
    | exact absurd hf (by decide)
    | exact iff_of_true (listed_of_fromFile h .inr (by simp [Xml.wbValues])
        (by simp [Xml.otherValues])) trivial

section Merge

variable {bin : List UInt8} {xml : Option Document} {c x fp fp' : FujiProfile}

theorem merge_iopCode : (fpApplyProfile x c).2.word .iopCode = c.word .iopCode := by
  rw [fpApplyProfile_word, if_neg (by decide)]

/-- **Which merged profiles the encoder takes.** -/
theorem merge_encodable (hc : fpParseD185 bin fp = some (0, c))
    (hx : fpParseFp1 xml fp' = some (0, x)) (hiop : x.word .iopCode = c.word .iopCode) :
    Encodable (fpApplyProfile x c).2 ↔ ∀ f ∈ mergedFields, Mergeable (x.word f) f := by
  obtain ⟨hfmt, rfl⟩ := fpParseD185_eq_iff.mp hc
  have hword := fun f => fpApplyProfile_word x (decoded bin) f
  have hfile : ∀ f, FromFile (x.word .iopCode) (x.word f) f := Xml.fpParseFp1_word hx
  constructor
  · intro henc f hf
    by_cases hslot : ∃ (i : ℕ) (tbl : UInt32 → List FujiLookup), layout[i]? = some (.setting f tbl)
    · obtain ⟨i, tbl, hs⟩ := hslot
      have hfit := henc _ (List.mem_of_getElem? hs)
      rw [Slot.Fits, merge_iopCode, hword, if_pos hf, ← hiop] at hfit
      exact (setting_fits_iff hs hf (hfile f)).mp hfit
    -- every member that is not always mergeable has a slot
    · cases f <;> first
        | trivial
        | exact absurd ⟨5, _, rfl⟩ hslot
        | exact absurd ⟨6, _, rfl⟩ hslot
        | exact absurd ⟨12, _, rfl⟩ hslot
        | exact absurd ⟨22, _, rfl⟩ hslot
        | exact absurd ⟨25, _, rfl⟩ hslot
  · intro hok s hs
    obtain ⟨i, hi⟩ := List.mem_iff_getElem?.mp hs
    cases s with
    | setting f tbl =>
      rw [Slot.Fits, merge_iopCode, hword]
      by_cases hf : f ∈ mergedFields
      -- a member of the file, under the code that it shares with the camera
      · rw [if_pos hf, ← hiop]
        exact (setting_fits_iff hi hf (hfile f)).mpr (hok f hf)
      · rw [if_neg hf]
        exact decoded_setting hfmt hi
    | grain =>
      rw [Slot.Fits, hword, hword, if_pos (by decide), if_pos (by decide)]
      exact ⟨listed_of_fromFile (hfile .grainEffect) .inr (by simp [Xml.wbValues])
          (by simp [Xml.otherValues]),
        listed_of_fromFile (hfile .grainEffectSize) .inr (by simp [Xml.wbValues])
          (by simp [Xml.otherValues])⟩
    | reserved => trivial

/-- **When a merged profile can be sent.**  For an accepted blob of a camera and an
accepted file with the same IOP code, the encoder takes the merged profile and the decoder
takes what it makes of it if and only if the file's settings are in the encoder's tables
and no improper leftover of `value` stands in for a member that is 0. -/
theorem merge_sendable_iff (hc : fpParseD185 bin fp = some (0, c))
    (hx : fpParseFp1 xml fp' = some (0, x)) (hiop : x.word .iopCode = c.word .iopCode)
    (u : Uninit) (out : FujiProfile) :
    (0 ≤ (fpCreateD185 (fpApplyProfile x c).2 u 1024).rc ∧
        ∃ q, fpParseD185 (fpCreateD185 (fpApplyProfile x c).2 u 1024).written out
          = some (0, q)) ↔
      (∀ f ∈ mergedFields, Mergeable (x.word f) f) ∧
        ∀ (i : ℕ) (s : Slot), layout[i]? = some s → s.Unwritten (fpApplyProfile x c).2 →
          s.LeftoverOk (fpApplyProfile x c).2 (u.value i) := by
  rw [fpCreateD185_rc_nonneg (by norm_num), ← merge_encodable hc hx hiop]
  refine and_congr_right fun henc => ?_
  rw [fpCreateD185_of_fits (by norm_num) henc]
  exact parse_created_iff henc u out

end Merge

/-- A blob of a camera that has a shooting condition and no other property set. -/
def cameraBlob : List UInt8 := assemble 0xff179502 (1 :: List.replicate 28 0)

/-- A file with the code of the same camera and a white balance shift of 5. -/
def shiftFile : Document where
  name := some "ConversionProfile"
  attrs := [("application", "XRFC"), ("version", "1.12.0.0")]
  child := some ⟨"PropertyGroup", [⟨"IOPCode", "FF179502", false⟩, ⟨"WBShiftR", "5", false⟩]⟩

theorem cameraBlob_parsed : ∃ c, fpParseD185 cameraBlob FujiProfile.zero = some (0, c) ∧
    c.word .iopCode = 0xff179502 ∧ c.word .shootingCondition = 1 := by
  have hrun : (fpParseD185 cameraBlob FujiProfile.zero).map
      (fun r => (r.1, r.2.word .iopCode, r.2.word .shootingCondition))
        = some (0, 0xff179502, 1) := by
    decide +kernel
  obtain ⟨⟨rc, c⟩, hc, hr⟩ := Option.map_eq_some_iff.mp hrun
  obtain ⟨rfl, hcode, hcond⟩ : rc = 0 ∧ _ ∧ _ := by simpa using hr
  exact ⟨c, hc, hcode, hcond⟩

theorem shiftFile_parsed : ∃ x, fpParseFp1 (some shiftFile) FujiProfile.zero = some (0, x) ∧
    x.word .iopCode = 0xff179502 ∧ x.word .wbShiftR = 5 ∧ x.word .shootingCondition = 0 := by
  have hrun : (fpParseFp1 (some shiftFile) FujiProfile.zero).map
      (fun r => (r.1, r.2.word .iopCode, r.2.word .wbShiftR, r.2.word .shootingCondition))
        = some (0, 0xff179502, 5, 0) := by
    decide +kernel
  obtain ⟨⟨rc, x⟩, hx, hr⟩ := Option.map_eq_some_iff.mp hrun
  obtain ⟨rfl, hcode, hshift, hcond⟩ : rc = 0 ∧ _ ∧ _ ∧ _ := by simpa using hr
  exact ⟨x, hx, hcode, hshift, hcond⟩

theorem merge_sendable_shiftFile : ∃ c x,
    fpParseD185 cameraBlob FujiProfile.zero = some (0, c) ∧
    fpParseFp1 (some shiftFile) FujiProfile.zero = some (0, x) ∧
    x.word .iopCode = c.word .iopCode ∧
    ((0 ≤ (fpCreateD185 (fpApplyProfile x c).2 ⟨fun _ => 0, fun _ => 0⟩ 1024).rc ∧
        ∃ q, fpParseD185 (fpCreateD185 (fpApplyProfile x c).2
          ⟨fun _ => 0, fun _ => 0⟩ 1024).written FujiProfile.zero = some (0, q)) ↔
      (∀ f ∈ mergedFields, Mergeable (x.word f) f) ∧
        ∀ (i : ℕ) (s : Slot), layout[i]? = some s → s.Unwritten (fpApplyProfile x c).2 →
          s.LeftoverOk (fpApplyProfile x c).2 0) := by
  obtain ⟨c, hc, hcode, -⟩ := cameraBlob_parsed
  obtain ⟨x, hx, hcode', -⟩ := shiftFile_parsed
  have hiop : x.word .iopCode = c.word .iopCode := hcode'.trans hcode.symm
  exact ⟨c, x, hc, hx, hiop, merge_sendable_iff hc hx hiop ⟨fun _ => 0, fun _ => 0⟩ _⟩

/-- A shift of 5 is stored as 5, which is no multiple of 10. -/
theorem merge_shiftFile_not_sendable :
    ¬ ∀ c x, fpParseD185 cameraBlob FujiProfile.zero = some (0, c) →
      fpParseFp1 (some shiftFile) FujiProfile.zero = some (0, x) →
      x.word .iopCode = c.word .iopCode →
      ∀ u, 0 ≤ (fpCreateD185 (fpApplyProfile x c).2 u 1024).rc ∧
        ∃ q, fpParseD185 (fpCreateD185 (fpApplyProfile x c).2 u 1024).written
          FujiProfile.zero = some (0, q) := by
  intro h
  obtain ⟨c, hc, hcode, -⟩ := cameraBlob_parsed
  obtain ⟨x, hx, hcode', hshift, -⟩ := shiftFile_parsed
  have hiop : x.word .iopCode = c.word .iopCode := hcode'.trans hcode.symm
  have hrc := (h c x hc hx hiop ⟨fun _ => 0, fun _ => 0⟩).1
  rw [fpCreateD185_rc_nonneg (by norm_num), merge_encodable hc hx hiop] at hrc
  have hbad := hrc .wbShiftR (by decide)
  rw [hshift] at hbad
  exact absurd hbad (by simp only [Mergeable]; decide)

/-! ### Members a file says nothing about -/

/-- No element of the file stores a value in `f`, and the sanitizer does not set it. -/
def Unspecified (xml : Option Document) (f : FpField) : Prop :=
  ∀ d version es ws, xml = some d → Xml.fileHead d = some (version, es) →
    Xml.fileWrites 0 (siblings es) = some ws →
    ∀ v, (f, v) ∉ ws ∧ (f, v) ∉ Xml.overlapWrites ((Xml.versioned version).assign ws)

/-- **The merge takes the merged members from the file whether it has them or not**: a
member the file says nothing about is 0 afterwards if it is merged, and as the camera had
it if it is not. -/
theorem merge_unspecified {xml : Option Document} {x fp : FujiProfile}
    (hx : fpParseFp1 xml fp = some (0, x)) {f : FpField} (hf : Unspecified xml f)
    (c : FujiProfile) : (fpApplyProfile x c).2.word f = if f ∈ mergedFields then 0 else c.word f := by
  rw [fpApplyProfile_word]
  refine if_congr Iff.rfl ?_ rfl
  obtain ⟨d, version, es, ws, rfl, hhead, hws, rfl⟩ := Xml.fpParseFp1_accepts_iff.mp hx
  have hno := hf d version es ws rfl hhead hws
  rw [FujiProfile.assign_word, last_eq_none_iff.mpr fun v => (hno v).2, Option.getD_none,
    FujiProfile.assign_word, last_eq_none_iff.mpr fun v => (hno v).1, Option.getD_none]
  rfl

/-- No file ever says anything about the shooting condition. -/
theorem unspecified_shootingCondition (xml : Option Document) :
    Unspecified xml .shootingCondition := by
  intro d version es ws _ _ hws v
  obtain ⟨-, rfl⟩ := Xml.fileWrites_eq_some (Xml.siblings_nodup es) hws
  constructor
  · intro hv
    obtain ⟨e, -, he⟩ := Xml.mem_allWrites.mp hv
    exact absurd (Xml.mem_storedBy he).2.1 (by simp [Xml.writers])
  · intro hv
    rcases Xml.mem_overlapWrites hv with ⟨-, hv⟩ | hv
    · simp [Xml.wbValues] at hv
    · simp [Xml.otherValues] at hv

theorem merge_unspecified_shiftFile : ∃ c x,
    fpParseD185 cameraBlob FujiProfile.zero = some (0, c) ∧ c.word .shootingCondition = 1 ∧
    fpParseFp1 (some shiftFile) FujiProfile.zero = some (0, x) ∧
    Unspecified (some shiftFile) .shootingCondition ∧
    (fpApplyProfile x c).2.word .shootingCondition = 0 := by
  obtain ⟨c, hc, -, hcond⟩ := cameraBlob_parsed
  obtain ⟨x, hx, -⟩ := shiftFile_parsed
  have hf := unspecified_shootingCondition (some shiftFile)
  exact ⟨c, x, hc, hcond, hx, hf, (merge_unspecified hx hf c).trans (if_pos (by decide))⟩

/-- The shooting condition of the camera does not survive the merge. -/
theorem merge_shiftFile_resets :
    ¬ ∀ c x f, fpParseD185 cameraBlob FujiProfile.zero = some (0, c) →
      fpParseFp1 (some shiftFile) FujiProfile.zero = some (0, x) →
      Unspecified (some shiftFile) f → (fpApplyProfile x c).2.word f = c.word f := by
  intro h
  obtain ⟨c, hc, -, hcond⟩ := cameraBlob_parsed
  obtain ⟨x, hx, -, -, hzero⟩ := shiftFile_parsed
  have heq := h c x .shootingCondition hc hx (unspecified_shootingCondition _)
  rw [fpApplyProfile_word, if_pos (by decide), hzero, hcond] at heq
  exact absurd heq (by decide)

end Fuji
