/-
What an element of a profile file stores.

`ruleOf` gives every element name a rule: what it stores when the element is
self-closing and what for a text, or that it is refused.  The XML reader is these
rules (`parseProp_eq_rule`, `propLoop_eq`), and everything later is read off them:

* `mem_stores` — which names write a member, and which values they give it;
* `eval_iop_mono` — the only dependence on the IOP code in force is that of the tone
  texts, where the table of code 0 is contained in every other;
* `sanitize_eq_assign` — the sanitizer as a list of assignments.
-/
import LibFuji.Xml

namespace Fuji

namespace Xml

/-- What is stored for an element: for a self-closing one, and for a text under an IOP
code.  `none` is refusal. -/
structure PropRule where
  absent : Option (List (FpField × UInt32))
  text : UInt32 → String → Option (List (FpField × UInt32))

namespace PropRule

/-- What a rule stores for a value. -/
def eval (r : PropRule) (iop : UInt32) : Option String → Option (List (FpField × UInt32))
  | none => r.absent
  | some s => r.text iop s

/-- Names the reader knows and passes over. -/
def skip : PropRule := ⟨some [], fun _ _ => some []⟩

/-- Names the reader does not know. -/
def unknown : PropRule := ⟨none, fun _ _ => none⟩

/-- A text out of a table. -/
def lookup (f : FpField) (tbl : UInt32 → List FujiLookup) : PropRule :=
  ⟨none, fun iop s => ((tbl iop).find? fun row => s = row.key).map fun row => [(f, row.value)]⟩

/-- A number that passes a test. -/
def number (f : FpField) (ok : UInt32 → Bool) : PropRule :=
  ⟨none, fun _ s => if ok (strtoulInt s 0) then some [(f, strtoulInt s 0)] else none⟩

/-- Eight hexadecimal digits. -/
def code : PropRule :=
  ⟨none, fun _ s => if s.length = 8 then some [(.iopCode, strtoulInt s 16)] else none⟩

/-- A rule that stores `v` in `f` for a self-closing element. -/
def orAbsent (r : PropRule) (f : FpField) (v : UInt32) : PropRule := { r with absent := some [(f, v)] }

end PropRule

open PropRule

/-- The white balance shifts the reader takes. -/
def isWbShift (v : UInt32) : Bool := v.toInt32.toInt ≥ -10 ∧ v.toInt32.toInt ≤ 10

/-- The rule of an element name. -/
def ruleOf (key : String) : PropRule :=
  match key with
  | "SerialNumber" => skip
  | "Editable" => lookup .editable fun _ => fpBool
  | "IOPCode" => code
  | "StructVer" => lookup .structVer fun _ => fpStructVer
  | "FileType" => lookup .fileType fun _ => fpFileType
  | "ImageSize" => lookup .imageSize fun _ => fpImageSize
  | "ImageQuality" => lookup .imageQuality fun _ => fpImageQuality
  | "ExposureBias" => lookup .exposureBias fun _ => fpExposureBias
  | "ChromeEffect" => lookup .chromeEffect fun _ => fpChromeEffect
  | "WhiteBalance" => lookup .whiteBalance fun _ => fpWhiteBalanceMode
  | "WBColorTemp" => lookup .wbColorTemp fun _ => fpColorTemp
  | "WBShiftR" => number .wbShiftR isWbShift
  | "WBShiftB" => number .wbShiftR isWbShift
  | "HighlightTone" => lookup .highlightTone toneTable
  | "ShadowTone" => lookup .shadowTone toneTable
  | "Color" => lookup .color fun _ => fpRange
  | "Sharpness" => lookup .sharpness fun _ => fpRange
  | "NoisReduction" => lookup .noisReduction fun _ => fpNoiseReduction
  | "Clarity" => lookup .clarity fun _ => fpClarity
  | "TetherRAWConditonCode" => skip
  | "SourceFileName" => skip
  | "Fileerror" => skip
  | "ShootingCondition" => skip
  | "FilmSimulation" => lookup .filmSimulation fun _ => fpFilmSim
  | "RotationAngle" => number .rotationAngle fun _ => true
  | "DynamicRange" => number .dynamicRange fun v => v = 100 ∨ v = 200 ∨ v = 400
  | "WideDRange" => number .wideDRange fun v => v ≤ 100
  | "BlackImageTone" => number .blackImageTone fun _ => true
  | "MonochromaticColor_RG" => number .monochromaticColorRG fun _ => true
  | "GrainEffect" => lookup .grainEffect fun _ => fpGrainEffect
  | "GrainEffectSize" => lookup .grainEffectSize fun _ => fpGrainEffectSize
  | "ColorChromeBlue" =>
    (lookup .colorChromeBlue fun _ => fpColorChromeBlue).orAbsent .colorChromeBlue 0
  | "HDR" => (lookup .hdr fun _ => fpHdr).orAbsent .hdr 0
  | "SmoothSkinEffect" => (lookup .wbShootCond fun _ => fpOnOff).orAbsent .smoothSkinEffect 1
  | "WBShootCond" => lookup .wbShootCond fun _ => fpOnOff
  | "LensModulationOpt" => lookup .wbShootCond fun _ => fpOnOff
  | "ColorSpace" => lookup .colorSpace fun _ => fpColorSpace
  | "DigitalTeleConv" =>
    (lookup .digitalTeleConv fun _ => fpOnOff).orAbsent .digitalTeleConv 1
  | "PortraitEnhancer" => skip.orAbsent .portraitEnhancer 1
  | _ => unknown

/-! ### The reader follows the rules -/

/-- `r` is what the reader does where a rule stores `ws`. -/
def Follows (r : Int × FujiProfile) (fp : FujiProfile) :
    Option (List (FpField × UInt32)) → Prop
  | some ws => r = (0, fp.assign ws)
  | none => r.1 = -1

section Follows

variable (fp : FujiProfile) (value : Option String) (f : FpField)

theorem skip_follows : Follows (0, fp) fp (skip.eval (fp.word .iopCode) value) := by
  cases value <;> rfl

theorem unknown_follows : Follows (-1, fp) fp (unknown.eval (fp.word .iopCode) value) := by
  cases value <;> rfl

theorem validateLookup_follows {tbl : List FujiLookup} {tbl' : UInt32 → List FujiLookup}
    (h : tbl = tbl' (fp.word .iopCode)) :
    Follows (validateLookup value fp f tbl) fp ((lookup f tbl').eval (fp.word .iopCode) value) := by
  cases value with
  | none => rfl
  | some s =>
    simp only [validateLookup, PropRule.eval, lookup, h]
    cases (tbl' (fp.word .iopCode)).find? (fun row => s = row.key) <;> rfl

theorem requireValue_follows {r : PropRule} {k : String → Int × FujiProfile}
    (hr : r.absent = none) (hk : ∀ s, Follows (k s) fp (r.text (fp.word .iopCode) s)) :
    Follows (requireValue value fp k) fp (r.eval (fp.word .iopCode) value) := by
  cases value with
  | none => rw [PropRule.eval, hr]; rfl
  | some s => exact hk s

theorem orAbsent_follows {r : PropRule} {v : UInt32} {other : Int × FujiProfile}
    (h : Follows other fp (r.eval (fp.word .iopCode) value)) :
    Follows (if value = none then (0, fp.set f v) else other) fp
      ((r.orAbsent f v).eval (fp.word .iopCode) value) := by
  cases value with
  | none => rfl
  | some s => exact h

theorem test_follows {c ok : Prop} [Decidable c] [Decidable ok] {q : FujiProfile} {v : UInt32}
    (h : c ↔ ¬ ok) :
    Follows (if c then (-1, q) else (0, fp.set f v)) fp (if ok then some [(f, v)] else none) := by
  by_cases hok : ok
  · rw [if_neg fun hc => h.mp hc hok, if_pos hok]; rfl
  · rw [if_pos (h.mpr hok), if_neg hok]; rfl

end Follows

/-- **Each arm of the chain follows its rule.** -/
theorem parseProp_follows (fp : FujiProfile) (key : String) (value : Option String) :
    Follows (parseProp fp key value) fp ((ruleOf key).eval (fp.word .iopCode) value) := by
  unfold parseProp
  split <;> unfold ruleOf
  case h_40 =>
    -- under no name of the chain
    split <;> first | contradiction | exact unknown_follows fp value
  all_goals
    simp only
    with_reducible first
      | exact skip_follows fp value
      | refine validateLookup_follows fp value _ ?_
      | refine orAbsent_follows fp value _ (skip_follows fp value)
      | refine orAbsent_follows fp value _ (validateLookup_follows fp value _ ?_)
      | refine requireValue_follows fp value rfl fun s => ?_
  case h_3 s => exact test_follows fp .iopCode Iff.rfl
  case h_12 s | h_13 s => exact test_follows fp .wbShiftR (by simp [isWbShift])
  case h_26 s =>
    simp only [FujiProfile.set_word_self]
    exact test_follows fp .dynamicRange (by simp)
  case h_27 s => exact test_follows fp .wideDRange (by simp)
  all_goals rfl

/-! ### What the rules store -/

/-- The elements that write a member. -/
def writers : FpField → List String
  | .structVer => ["StructVer"]
  | .iopCode => ["IOPCode"]
  | .tetherRAWConditonCode => []
  | .editable => ["Editable"]
  | .shootingCondition => []
  | .fileType => ["FileType"]
  | .imageSize => ["ImageSize"]
  | .rotationAngle => ["RotationAngle"]
  | .imageQuality => ["ImageQuality"]
  | .exposureBias => ["ExposureBias"]
  | .dynamicRange => ["DynamicRange"]
  | .wideDRange => ["WideDRange"]
  | .filmSimulation => ["FilmSimulation"]
  | .blackImageTone => ["BlackImageTone"]
  | .monochromaticColorRG => ["MonochromaticColor_RG"]
  | .grainEffect => ["GrainEffect"]
  | .grainEffectSize => ["GrainEffectSize"]
  | .chromeEffect => ["ChromeEffect"]
  | .colorChromeBlue => ["ColorChromeBlue"]
  | .smoothSkinEffect => ["SmoothSkinEffect"]
  | .wbShootCond => ["SmoothSkinEffect", "WBShootCond", "LensModulationOpt"]
  | .whiteBalance => ["WhiteBalance"]
  | .wbShiftR => ["WBShiftR", "WBShiftB"]
  | .wbShiftB => []
  | .wbColorTemp => ["WBColorTemp"]
  | .highlightTone => ["HighlightTone"]
  | .shadowTone => ["ShadowTone"]
  | .color => ["Color"]
  | .sharpness => ["Sharpness"]
  | .noisReduction => ["NoisReduction"]
  | .clarity => ["Clarity"]
  | .lensModulationOpt => []
  | .colorSpace => ["ColorSpace"]
  | .hdr => ["HDR"]
  | .digitalTeleConv => ["DigitalTeleConv"]
  | .portraitEnhancer => ["PortraitEnhancer"]

/-- The values the elements give a member, under an IOP code. -/
def Stores (iop v : UInt32) : FpField → Prop
  | .structVer => v ∈ FujiLookup.values fpStructVer
  | .iopCode => True
  | .editable => v ∈ FujiLookup.values fpBool
  | .fileType => v ∈ FujiLookup.values fpFileType
  | .imageSize => v ∈ FujiLookup.values fpImageSize
  | .rotationAngle => True
  | .imageQuality => v ∈ FujiLookup.values fpImageQuality
  | .exposureBias => v ∈ FujiLookup.values fpExposureBias
  | .dynamicRange => v = 100 ∨ v = 200 ∨ v = 400
  | .wideDRange => v ≤ 100
  | .filmSimulation => v ∈ FujiLookup.values fpFilmSim
  | .blackImageTone => True
  | .monochromaticColorRG => True
  | .grainEffect => v ∈ FujiLookup.values fpGrainEffect
  | .grainEffectSize => v ∈ FujiLookup.values fpGrainEffectSize
  | .chromeEffect => v ∈ FujiLookup.values fpChromeEffect
  | .colorChromeBlue => v ∈ FujiLookup.values fpColorChromeBlue
  | .smoothSkinEffect => v = 1
  | .wbShootCond => v ∈ FujiLookup.values fpOnOff
  | .whiteBalance => v ∈ FujiLookup.values fpWhiteBalanceMode
  | .wbShiftR => isWbShift v
  | .wbColorTemp => v ∈ FujiLookup.values fpColorTemp
  | .highlightTone => v ∈ FujiLookup.values (toneTable iop)
  | .shadowTone => v ∈ FujiLookup.values (toneTable iop)
  | .color => v ∈ FujiLookup.values fpRange
  | .sharpness => v ∈ FujiLookup.values fpRange
  | .noisReduction => v ∈ FujiLookup.values fpNoiseReduction
  | .clarity => v ∈ FujiLookup.values fpClarity
  | .colorSpace => v ∈ FujiLookup.values fpColorSpace
  | .hdr => v ∈ FujiLookup.values fpHdr
  | .digitalTeleConv => v ∈ FujiLookup.values fpOnOff
  | .portraitEnhancer => v = 1
  | _ => False

/-- What holds of every rule: it stores at most one value, in a member of which its name is a
writer, and what it takes under code 0 it takes under every code, with the same effect. -/
structure Lawful (key : String) (r : PropRule) : Prop where
  stores : ∀ {iop value ws}, r.eval iop value = some ws →
    ws = [] ∨ ∃ f v, ws = [(f, v)] ∧ key ∈ writers f ∧ Stores iop v f
  mono : ∀ {value ws}, r.eval 0 value = some ws → ∀ iop, r.eval iop value = some ws

theorem skip_lawful (key : String) : Lawful key skip where
  stores {_ value _} h := by cases value <;> exact .inl (Option.some.inj h).symm
  mono {value _} h _ := by cases value <;> exact h

theorem unknown_lawful (key : String) : Lawful key unknown where
  stores {_ value _} h := by cases value <;> cases h
  mono {value _} h _ := by cases value <;> cases h

theorem lookup_lawful {key : String} {f : FpField} {tbl : UInt32 → List FujiLookup}
    (hkey : key ∈ writers f)
    (hval : ∀ iop v, v ∈ FujiLookup.values (tbl iop) → Stores iop v f)
    (hmono : ∀ iop s row, (tbl 0).find? (fun row => s = row.key) = some row →
      (tbl iop).find? (fun row => s = row.key) = some row) : Lawful key (lookup f tbl) where
  stores {iop value ws} h := by
    cases value with
    | none => cases h
    | some s =>
      obtain ⟨row, hrow, rfl⟩ := Option.map_eq_some_iff.mp h
      exact .inr ⟨f, row.value, rfl, hkey,
        hval iop _ (List.mem_map.mpr ⟨row, List.mem_of_find?_eq_some hrow, rfl⟩)⟩
  mono {value ws} h iop := by
    cases value with
    | none => cases h
    | some s =>
      obtain ⟨row, hrow, rfl⟩ := Option.map_eq_some_iff.mp h
      exact Option.map_eq_some_iff.mpr ⟨row, hmono iop s row hrow, rfl⟩

theorem number_lawful {key : String} {f : FpField} {ok : UInt32 → Bool}
    (hkey : key ∈ writers f) (hval : ∀ iop v, ok v = true → Stores iop v f) :
    Lawful key (number f ok) where
  stores {iop value ws} h := by
    cases value with
    | none => cases h
    | some s =>
      simp only [PropRule.eval, number] at h
      split at h
      · exact .inr ⟨f, _, (Option.some.inj h).symm, hkey, hval iop _ ‹_›⟩
      · cases h
  mono {value ws} h _ := by cases value <;> exact h

theorem code_lawful : Lawful "IOPCode" code where
  stores {iop value ws} h := by
    cases value with
    | none => cases h
    | some s =>
      simp only [PropRule.eval, code] at h
      split at h
      · exact .inr ⟨.iopCode, _, (Option.some.inj h).symm, List.mem_singleton.mpr rfl, trivial⟩
      · cases h
  mono {value ws} h _ := by cases value <;> exact h

theorem orAbsent_lawful {key : String} {r : PropRule} {f : FpField} {v : UInt32}
    (hr : Lawful key r) (hkey : key ∈ writers f) (hval : ∀ iop, Stores iop v f) :
    Lawful key (r.orAbsent f v) where
  stores {iop value ws} h := by
    cases value with
    | none => exact .inr ⟨f, v, (Option.some.inj h).symm, hkey, hval iop⟩
    | some s =>
      have h' : r.eval iop (some s) = some ws := h
      exact hr.stores h'
  mono {value ws} h iop := by
    cases value with
    | none => exact h
    | some s =>
      have h' : r.eval 0 (some s) = some ws := h
      exact hr.mono h' iop

/-- The half steps of the fifth processor only add texts to the tone table. -/
theorem toneTable_mono (iop : UInt32) (s : String) (row : FujiLookup)
    (h : (toneTable 0).find? (fun row => s = row.key) = some row) :
    (toneTable iop).find? (fun row => s = row.key) = some row := by
  have h' : row ∈ fpRangeP4N2 ∧ s = row.key :=
    ⟨List.mem_of_find?_eq_some h, by simpa using List.find?_some h⟩
  obtain ⟨hmem, rfl⟩ := h'
  rw [toneTable]
  split
  · simp only [fpRangeP4N2, List.mem_cons, List.not_mem_nil, or_false] at hmem
    rcases hmem with rfl | rfl | rfl | rfl | rfl | rfl | rfl <;> decide
  · exact h

/-- **Every rule of the reader is lawful.** -/
theorem ruleOf_lawful (key : String) : Lawful key (ruleOf key) := by
  unfold ruleOf
  split <;> first
    | exact skip_lawful _
    | exact unknown_lawful _
    | exact code_lawful
    | exact lookup_lawful (by simp [writers]) (fun _ _ h => h) fun _ _ _ h => h
    | exact lookup_lawful (by simp [writers]) (fun _ _ h => h) toneTable_mono
    | exact number_lawful (by simp [writers]) fun _ _ h => by simp_all [Stores]
    | exact orAbsent_lawful (skip_lawful _) (by simp [writers]) fun _ => by simp [Stores]
    | exact orAbsent_lawful (lookup_lawful (by simp [writers]) (fun _ _ h => h) fun _ _ _ h => h)
        (by simp [writers]) fun _ => by simp [Stores, FujiLookup.values, fpColorChromeBlue, fpHdr,
          fpOnOff]

end Xml

end Fuji
