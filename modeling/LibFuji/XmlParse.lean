/-
What `fp_parse_fp1` accepts, and the profile it fills in.

* `sanitize_eq_assign` — the sanitizer is a list of assignments, which
  `mem_overlapWrites` bounds;
* `fileHead` — the checks of the head of a file, which leave a version and elements;
* `fpParseFp1_accepts_iff` — a file is accepted when its head is right and all its
  elements store; its profile is what they store and the sanitizer puts on top.
-/
import LibFuji.XmlFile

namespace Fuji

open Assignments

namespace Xml

/-! ### The sanitizer -/

/-- What `sanitizeWhiteBalance` puts into a profile. -/
def wbWrites (fp : FujiProfile) : List (FpField × UInt32) :=
  if fp.word .wbShootCond = 1 then
    [(.whiteBalance, 1), (.wbColorTemp, 0), (.wbShiftR, 0), (.wbShiftB, 0)]
  else []

/-- What the HDR setting puts into a profile. -/
def drangeWrites (fp : FujiProfile) : List (FpField × UInt32) :=
  if fp.word .hdr = 801 then [(.dynamicRange, 800)]
  else if fp.word .hdr = 800 ∨ fp.word .hdr = 400 ∨ fp.word .hdr = 200 then
    [(.dynamicRange, fp.word .hdr)]
  else []

/-- What `sanitizeImageType` puts into a profile. -/
def typeWrites (fp : FujiProfile) : List (FpField × UInt32) :=
  if fp.word .fileType = 9 ∨ fp.word .fileType = 11 then [(.imageQuality, 0), (.imageSize, 0)]
  else []

/-- What `sanitizeGrain` puts into a profile. -/
def grainWrites (fp : FujiProfile) : List (FpField × UInt32) :=
  if fp.word .grainEffect = 1 then [(.grainEffectSize, 0)] else []

/-- What `sanitizeColor` puts into a profile. -/
def colorWrites (fp : FujiProfile) : List (FpField × UInt32) :=
  if fp.word .filmSimulation ∈ monochromeSims then [(.color, 0)]
  else if fp.word .filmSimulation = 10 then
    [(.color, 0), (.monochromaticColorRG, 0), (.blackImageTone, 0)]
  else [(.monochromaticColorRG, 0), (.blackImageTone, 0)]

/-- The settings the sanitizer puts into a profile, in its order. -/
def overlapWrites (fp : FujiProfile) : List (FpField × UInt32) :=
  wbWrites fp ++
    if fp.word .hdr = 801 ∧ fp.word .wideDRange ≠ 3 then []
    else drangeWrites fp ++ (typeWrites fp ++ (grainWrites fp ++ colorWrites fp))

section Sanitize

variable (fp : FujiProfile)

theorem sanitizeWhiteBalance_eq : sanitizeWhiteBalance fp = fp.assign (wbWrites fp) := by
  rw [sanitizeWhiteBalance, wbWrites]
  split <;> rfl

theorem sanitizeImageType_eq : sanitizeImageType fp = fp.assign (typeWrites fp) := by
  rw [sanitizeImageType, typeWrites]
  split <;> rfl

theorem sanitizeGrain_eq : sanitizeGrain fp = fp.assign (grainWrites fp) := by
  rw [sanitizeGrain, grainWrites]
  split <;> rfl

theorem sanitizeColor_eq : sanitizeColor fp = fp.assign (colorWrites fp) := by
  rw [sanitizeColor, colorWrites]
  split_ifs <;> rfl

theorem sanitizeDynamicRange_eq : sanitizeDynamicRange fp = fp.assign (drangeWrites fp) := by
  rw [sanitizeDynamicRange, drangeWrites]
  split_ifs <;> rfl

/-- The members that decide what the sanitizer does. -/
def deciding : List FpField :=
  [.wbShootCond, .hdr, .wideDRange, .fileType, .grainEffect, .filmSimulation]

/-- `q` decides as `p` does. -/
def SameDeciding (p q : FujiProfile) : Prop := ∀ f ∈ deciding, q.word f = p.word f

theorem wbWrites_not_deciding : ∀ a ∈ wbWrites fp, a.1 ∉ deciding := by
  rw [wbWrites]
  split <;> simp [deciding]

theorem drangeWrites_not_deciding : ∀ a ∈ drangeWrites fp, a.1 ∉ deciding := by
  rw [drangeWrites]
  split_ifs <;> simp [deciding]

theorem typeWrites_not_deciding : ∀ a ∈ typeWrites fp, a.1 ∉ deciding := by
  rw [typeWrites]
  split <;> simp [deciding]

theorem grainWrites_not_deciding : ∀ a ∈ grainWrites fp, a.1 ∉ deciding := by
  rw [grainWrites]
  split <;> simp [deciding]

variable {fp} {p q : FujiProfile}

theorem SameDeciding.assign (h : SameDeciding p q) {ws : List (FpField × UInt32)}
    (hws : ∀ a ∈ ws, a.1 ∉ deciding) : SameDeciding p (q.assign ws) := by
  intro f hf
  rw [FujiProfile.assign_word, last_eq_none_iff.mpr fun v hv => hws _ hv hf, Option.getD_none,
    h f hf]

theorem drangeWrites_congr (h : SameDeciding p q) : drangeWrites q = drangeWrites p := by
  simp only [drangeWrites, h .hdr (by decide)]

theorem typeWrites_congr (h : SameDeciding p q) : typeWrites q = typeWrites p := by
  simp only [typeWrites, h .fileType (by decide)]

theorem grainWrites_congr (h : SameDeciding p q) : grainWrites q = grainWrites p := by
  simp only [grainWrites, h .grainEffect (by decide)]

theorem colorWrites_congr (h : SameDeciding p q) : colorWrites q = colorWrites p := by
  simp only [colorWrites, h .filmSimulation (by decide)]

theorem overlapWrites_congr (h : SameDeciding p q) : overlapWrites q = overlapWrites p := by
  simp only [overlapWrites, wbWrites, drangeWrites_congr h, typeWrites_congr h,
    grainWrites_congr h, colorWrites_congr h, h .wbShootCond (by decide), h .hdr (by decide),
    h .wideDRange (by decide)]

/-- **The sanitizer as assignments.** -/
theorem sanitize_eq_assign (fp : FujiProfile) :
    (sanitizeParsedConvProfile fp).2 = fp.assign (overlapWrites fp) := by
  -- no step changes a member that a later step looks at
  have h1 : SameDeciding fp (fp.assign (wbWrites fp)) :=
    SameDeciding.assign (fun _ _ => rfl) (wbWrites_not_deciding fp)
  have h2 := h1.assign (drangeWrites_not_deciding fp)
  have h3 := h2.assign (typeWrites_not_deciding fp)
  have h4 := h3.assign (grainWrites_not_deciding fp)
  simp only [sanitizeParsedConvProfile, sanitizeWhiteBalance_eq, sanitizeDynamicRange_eq,
    sanitizeImageType_eq, sanitizeGrain_eq, sanitizeColor_eq, drangeWrites_congr h1,
    typeWrites_congr h2, grainWrites_congr h3, colorWrites_congr h4, h1 .hdr (by decide),
    h1 .wideDRange (by decide)]
  rw [overlapWrites, FujiProfile.assign_append]
  split
  · rfl
  · simp only [FujiProfile.assign_append]

end Sanitize

/-- The white balance settings the sanitizer may put in. -/
def wbValues : List (FpField × UInt32) :=
  [(.whiteBalance, 1), (.wbColorTemp, 0), (.wbShiftR, 0), (.wbShiftB, 0)]

/-- The other settings the sanitizer may put in. -/
def otherValues : List (FpField × UInt32) :=
  [(.dynamicRange, 200), (.dynamicRange, 400), (.dynamicRange, 800), (.imageQuality, 0),
    (.imageSize, 0), (.grainEffectSize, 0), (.color, 0), (.monochromaticColorRG, 0),
    (.blackImageTone, 0)]

theorem mem_overlapWrites {fp : FujiProfile} {a : FpField × UInt32} (h : a ∈ overlapWrites fp) :
    fp.word .wbShootCond = 1 ∧ a ∈ wbValues ∨ a ∈ otherValues := by
  have hdr : ∀ a ∈ drangeWrites fp, a ∈ otherValues := by
    rw [drangeWrites]
    split_ifs with h1 h2
    · decide
    · rcases h2 with h2 | h2 | h2 <;> rw [h2] <;> decide
    · decide
  have htype : ∀ a ∈ typeWrites fp, a ∈ otherValues := by
    rw [typeWrites]
    split <;> decide
  have hgrain : ∀ a ∈ grainWrites fp, a ∈ otherValues := by
    rw [grainWrites]
    split <;> decide
  have hcolor : ∀ a ∈ colorWrites fp, a ∈ otherValues := by
    rw [colorWrites]
    split_ifs <;> decide
  rw [overlapWrites, List.mem_append] at h
  rcases h with h | h
  · rw [wbWrites] at h
    split at h
    · exact .inl ⟨‹_›, h⟩
    · cases h
  · right
    split at h
    · cases h
    · simp only [List.mem_append] at h
      rcases h with h | h | h | h
      · exact hdr a h
      · exact htype a h
      · exact hgrain a h
      · exact hcolor a h

/-- A member that no setting of the sanitizer is about keeps its value. -/
theorem assign_overlapWrites_word {fp : FujiProfile} {f : FpField}
    (hwb : fp.word .wbShootCond = 1 → ∀ v, (f, v) ∉ wbValues) (h : ∀ v, (f, v) ∉ otherValues) :
    (fp.assign (overlapWrites fp)).word f = fp.word f := by
  rw [FujiProfile.assign_word, last_eq_none_iff.mpr, Option.getD_none]
  intro v hv
  rcases mem_overlapWrites hv with ⟨hon, hv⟩ | hv
  · exact hwb hon v hv
  · exact h v hv

/-! ### The head of a file -/

/-- The profile version of a file. -/
def versionOf (xml : Document) : Option Int :=
  match xml.attr "version" with
  | some version =>
    if version = "1.10.0.0" ∨ version = "1.11.0.0" then some 1
    else if version = "1.12.0.0" then some 2
    else none
  | none => none

/-- The property group of a file, if it has one that is not empty. -/
def groupOf (xml : Document) : Option (List Element) :=
  match xml.child with
  | some group =>
    if group.name = "PropertyGroup" ∧ group.children ≠ [] then some group.children else none
  | none => none

/-- What the head of a file gives: the version and the elements. -/
def fileHead (xml : Document) : Option (Int × List Element) :=
  if xml.name = some "ConversionProfile" ∧ xml.attr "application" = some "XRFC" then do
    let version ← versionOf xml
    let es ← groupOf xml
    some (version, es)
  else none

/-- A profile with a version and nothing in it. -/
def versioned (version : Int) : FujiProfile := { FujiProfile.zero with profileVersion := version }

/-- The rest of `fp_parse_fp1` after the head of the file. -/
def parseElements (version : Int) (es : List Element) : Int × FujiProfile :=
  let r := propLoop (siblings es) (versioned version)
  if r.1 ≠ 0 then r else (0, (sanitizeParsedConvProfile r.2).2)

theorem parseGroup_eq (xml : Document) (version : Int) :
    parseGroup xml (versioned version) =
      match groupOf xml with
      | some es => parseElements version es
      | none => (-1, versioned version) := by
  rw [parseGroup, groupOf]
  cases xml.child with
  | none => rfl
  | some group =>
    by_cases hname : group.name = "PropertyGroup"
    · by_cases hes : group.children = []
      · simp [hname, hes]
      · simp [hname, hes, parseElements]
    · simp [hname]

/-- A root element is read as `fileHead` says. -/
theorem fpParseFp1_eq {xml : Document} {name : String} (hname : xml.name = some name)
    (fp : FujiProfile) :
    ∃ q, fpParseFp1 (some xml) fp = some (match fileHead xml with
      | some (version, es) => parseElements version es
      | none => (-1, q)) := by
  have hrun : fpParseFp1 (some xml) fp = if name ≠ "ConversionProfile" then
      some (-1, FujiProfile.zero) else some (parseRoot xml FujiProfile.zero) := by
    rw [fpParseFp1, Option.bind_eq_bind, Option.bind_some, hname]
    rfl
  rw [hrun, fileHead, hname, versionOf, parseRoot]
  -- one case for each check, in the order of the source
  by_cases h1 : name = "ConversionProfile"
  · rcases happ : xml.attr "application" with _ | application
    · exact ⟨FujiProfile.zero, by simp [h1]⟩
    · by_cases h2 : application = "XRFC"
      · rcases hver : xml.attr "version" with _ | version
        · exact ⟨FujiProfile.zero, by simp [h1, h2]⟩
        · have hg : ∀ v, parseGroup xml { FujiProfile.zero with profileVersion := v } = _ :=
            parseGroup_eq xml
          by_cases h3 : version = "1.10.0.0" ∨ version = "1.11.0.0"
          · refine ⟨versioned 1, ?_⟩
            rcases hgr : groupOf xml with _ | es <;> simp [h1, h2, h3, hg, hgr]
          · by_cases h4 : version = "1.12.0.0"
            · refine ⟨versioned 2, ?_⟩
              rcases hgr : groupOf xml with _ | es <;> simp [h1, h2, h4, hg, hgr]
            · refine ⟨FujiProfile.zero, ?_⟩
              simp [h1, h2, h3, h4]
      · exact ⟨FujiProfile.zero, by simp [h1, h2]⟩
  · exact ⟨FujiProfile.zero, by simp [h1]⟩

/-- The elements that are read. -/
theorem parseElements_of_writes {version : Int} {es : List Element}
    {ws : List (FpField × UInt32)} (hws : fileWrites 0 (siblings es) = some ws) :
    parseElements version es = (0, ((versioned version).assign ws).assign
      (overlapWrites ((versioned version).assign ws))) := by
  have h := propLoop_follows (siblings es) (versioned version)
  rw [show (versioned version).word .iopCode = 0 from rfl, hws] at h
  have hrun : propLoop (siblings es) (versioned version) = (0, (versioned version).assign ws) := h
  rw [parseElements, hrun, if_neg (by simp), sanitize_eq_assign]

theorem parseElements_of_no_writes {version : Int} {es : List Element}
    (hws : fileWrites 0 (siblings es) = none) : (parseElements version es).1 = -1 := by
  have h := propLoop_follows (siblings es) (versioned version)
  rw [show (versioned version).word .iopCode = 0 from rfl, hws] at h
  have hrc : (propLoop (siblings es) (versioned version)).1 = -1 := h
  rw [parseElements, if_pos (by rw [hrc]; decide), hrc]

theorem parseElements_eq_iff {version : Int} {es : List Element} {x : FujiProfile} :
    parseElements version es = (0, x) ↔ ∃ ws, fileWrites 0 (siblings es) = some ws ∧
      x = ((versioned version).assign ws).assign
        (overlapWrites ((versioned version).assign ws)) := by
  rcases hws : fileWrites 0 (siblings es) with _ | ws
  · have hrc := @parseElements_of_no_writes version es hws
    constructor
    · intro heq
      rw [heq] at hrc
      cases hrc
    · rintro ⟨ws, h, -⟩
      cases h
  · simp [parseElements_of_writes hws, eq_comm]

theorem parseElements_fst (version : Int) (es : List Element) :
    (parseElements version es).1 = if (fileWrites 0 (siblings es)).isSome then 0 else -1 := by
  rcases hws : fileWrites 0 (siblings es) with _ | ws
  · exact parseElements_of_no_writes hws
  · rw [parseElements_of_writes hws]
    rfl

/-- **What the reader accepts, and the profile it fills in.** -/
theorem fpParseFp1_accepts_iff {xml : Option Document} {fp x : FujiProfile} :
    fpParseFp1 xml fp = some (0, x) ↔
      ∃ d version es ws, xml = some d ∧ fileHead d = some (version, es) ∧
        fileWrites 0 (siblings es) = some ws ∧
        x = ((versioned version).assign ws).assign
          (overlapWrites ((versioned version).assign ws)) := by
  rcases xml with _ | d
  · simp [fpParseFp1]
  · rcases hname : d.name with _ | name
    · simp [fpParseFp1, fileHead, hname]
    · obtain ⟨q, hq⟩ := fpParseFp1_eq hname fp
      rw [hq, Option.some_inj]
      rcases hhead : fileHead d with _ | ⟨version, es⟩
      · simp [hhead]
      · simp only [parseElements_eq_iff, Option.some_inj]
        constructor
        · rintro ⟨ws, hws, rfl⟩
          exact ⟨d, version, es, ws, rfl, hhead, hws, rfl⟩
        · rintro ⟨d', version', es', ws, rfl, hhead', hws, rfl⟩
          rw [hhead, Option.some_inj, Prod.mk.injEq] at hhead'
          obtain ⟨rfl, rfl⟩ := hhead'
          exact ⟨ws, hws, rfl⟩

end Xml

end Fuji
