/-
Profile files (`xml.c`): the XML form of a conversion profile.

`Document` is the tree `ezxml_parse_file` builds, as far as the reader of profiles
looks at it.  `Xml.parseProp` is the chain of `strcmp` of `parse_prop`, arm by arm;
`fpParseFp1` is `fp_parse_fp1` with its checks of the head of a file, its loop over
the elements, and `sanitize_parsed_conv_profile`.

Texts are C strings: a `Char` stands for one byte.  `unsigned long` has 64 bits.
A NULL pointer that is dereferenced is `none`.
-/
import LibFuji.Profile

namespace Fuji

/-! ### Numbers in texts -/

/-- `isspace` in the C locale. -/
def isSpace (c : Char) : Bool := c.toNat = 0x20 ∨ 0x09 ≤ c.toNat ∧ c.toNat ≤ 0x0d

/-- The value of a digit or letter as a digit of `strtoul`. -/
def digitVal (c : Char) : Option ℕ :=
  if '0' ≤ c ∧ c ≤ '9' then some (c.toNat - 0x30)
  else if 'A' ≤ c ∧ c ≤ 'Z' then some (c.toNat - 0x41 + 10)
  else if 'a' ≤ c ∧ c ≤ 'z' then some (c.toNat - 0x61 + 10)
  else none

/-- Is `c` a digit in base `b`? -/
def isDigitOf (b : ℕ) (c : Char) : Bool := (digitVal c).any (· < b)

/-- The sign at the head of a number, and what follows it. -/
def takeSign : List Char → Bool × List Char
  | c :: cs => if c = '-' then (true, cs) else if c = '+' then (false, cs) else (false, c :: cs)
  | [] => (false, [])

/-- The base a prefix `0x` or `0` selects, and what follows the prefix. -/
def takeBase (base : ℕ) : List Char → ℕ × List Char
  | z :: x :: d :: cs =>
    if (base = 0 ∨ base = 16) ∧ z = '0' ∧ (x = 'x' ∨ x = 'X') ∧ isDigitOf 16 d then (16, d :: cs)
    else (if base ≠ 0 then base else if z = '0' then 8 else 10, z :: x :: d :: cs)
  | cs => (if base ≠ 0 then base else if cs.head? = some '0' then 8 else 10, cs)

/-- `strtoul(s, NULL, base)`. -/
def strtoul (s : String) (base : ℕ) : ℕ :=
  let (neg, cs) := takeSign (s.toList.dropWhile isSpace)
  let (base, cs) := takeBase base cs
  let v := (cs.takeWhile (isDigitOf base)).foldl (fun acc c => acc * base + (digitVal c).getD 0) 0
  if v ≥ 2 ^ 64 then 2 ^ 64 - 1 else if neg then (2 ^ 64 - v) % 2 ^ 64 else v

/-- `(int)strtoul(s, NULL, base)`, as 32 bits. -/
def strtoulInt (s : String) (base : ℕ) : UInt32 := UInt32.ofNat (strtoul s base)

/-! ### Documents -/

/-- An element of a property group; `selfClosing` is the flag for `<name/>`. -/
structure Element where
  name : String
  txt : String
  selfClosing : Bool
  deriving DecidableEq, Repr

/-- The first child of the root. -/
structure Group where
  name : String
  children : List Element

/-- A parsed file: the root element; `name` is NULL for a file without any. -/
structure Document where
  name : Option String
  attrs : List (String × String)
  child : Option Group

/-- `ezxml_attr(xml, attr)`. -/
def Document.attr (xml : Document) (attr : String) : Option String := xml.attrs.lookup attr

/-- The chain of `sibling` pointers: ezxml links the first element of each name, in the
order of the file; the others hang on `next` pointers. -/
def siblings : List Element → List Element
  | [] => []
  | e :: es => e :: (siblings es).filter (·.name ≠ e.name)

namespace Xml

/-- `validate_lookup(str, &fp->f, tbl)`. -/
def validateLookup (str : Option String) (fp : FujiProfile) (f : FpField)
    (tbl : List FujiLookup) : Int × FujiProfile :=
  match str with
  | none => (-1, fp)
  | some s =>
    match tbl.find? (fun row => s = row.key) with
    | some row => (0, fp.set f row.value)
    | none => (-1, fp)

/-- `if (value == NULL) return -1;` in front of what is done with the text. -/
def requireValue (value : Option String) (fp : FujiProfile)
    (k : String → Int × FujiProfile) : Int × FujiProfile :=
  match value with
  | none => (-1, fp)
  | some s => k s

/-- `parse_prop` of the XML reader; `value` is NULL for a self-closing element. -/
def parseProp (fp : FujiProfile) (key : String) (value : Option String) : Int × FujiProfile :=
  match key with
  | "SerialNumber" => (0, fp)
  | "Editable" => validateLookup value fp .editable fpBool
  | "IOPCode" => requireValue value fp fun s =>
      if s.length ≠ 8 then (-1, fp) else (0, fp.set .iopCode (strtoulInt s 16))
  | "StructVer" => validateLookup value fp .structVer fpStructVer
  | "FileType" => validateLookup value fp .fileType fpFileType
  | "ImageSize" => validateLookup value fp .imageSize fpImageSize
  | "ImageQuality" => validateLookup value fp .imageQuality fpImageQuality
  | "ExposureBias" => validateLookup value fp .exposureBias fpExposureBias
  | "ChromeEffect" => validateLookup value fp .chromeEffect fpChromeEffect
  | "WhiteBalance" => validateLookup value fp .whiteBalance fpWhiteBalanceMode
  | "WBColorTemp" => validateLookup value fp .wbColorTemp fpColorTemp
  | "WBShiftR" => requireValue value fp fun s =>
      let val := (strtoulInt s 0).toInt32.toInt
      if ¬ (val ≥ -10 ∧ val ≤ 10) then (-1, fp) else (0, fp.set .wbShiftR (strtoulInt s 0))
  | "WBShiftB" => requireValue value fp fun s =>
      let val := (strtoulInt s 0).toInt32.toInt
      if ¬ (val ≥ -10 ∧ val ≤ 10) then (-1, fp) else (0, fp.set .wbShiftR (strtoulInt s 0))
  | "HighlightTone" => validateLookup value fp .highlightTone (fpGetHighlightTone fp)
  | "ShadowTone" => validateLookup value fp .shadowTone (fpGetShadowTone fp)
  | "Color" => validateLookup value fp .color fpRange
  | "Sharpness" => validateLookup value fp .sharpness fpRange
  | "NoisReduction" => validateLookup value fp .noisReduction fpNoiseReduction
  | "Clarity" => validateLookup value fp .clarity fpClarity
  | "TetherRAWConditonCode" => (0, fp)
  | "SourceFileName" => (0, fp)
  | "Fileerror" => (0, fp)
  | "ShootingCondition" => (0, fp)
  | "FilmSimulation" => validateLookup value fp .filmSimulation fpFilmSim
  | "RotationAngle" => requireValue value fp fun s =>
      (0, fp.set .rotationAngle (strtoulInt s 0))
  | "DynamicRange" => requireValue value fp fun s =>
      let fp := fp.set .dynamicRange (strtoulInt s 0)
      if fp.word .dynamicRange ≠ 100 ∧ fp.word .dynamicRange ≠ 200 ∧ fp.word .dynamicRange ≠ 400
      then (-1, fp) else (0, fp)
  | "WideDRange" => requireValue value fp fun s =>
      let v := strtoulInt s 0
      if ¬ v ≤ 100 then (-1, fp) else (0, fp.set .wideDRange v)
  | "BlackImageTone" => requireValue value fp fun s =>
      (0, fp.set .blackImageTone (strtoulInt s 0))
  | "MonochromaticColor_RG" => requireValue value fp fun s =>
      (0, fp.set .monochromaticColorRG (strtoulInt s 0))
  | "GrainEffect" => validateLookup value fp .grainEffect fpGrainEffect
  | "GrainEffectSize" => validateLookup value fp .grainEffectSize fpGrainEffectSize
  | "ColorChromeBlue" =>
    if value = none then (0, fp.set .colorChromeBlue 0)
    else validateLookup value fp .colorChromeBlue fpColorChromeBlue
  | "HDR" =>
    if value = none then (0, fp.set .hdr 0) else validateLookup value fp .hdr fpHdr
  | "SmoothSkinEffect" =>
    if value = none then (0, fp.set .smoothSkinEffect 1)
    else validateLookup value fp .wbShootCond fpOnOff
  | "WBShootCond" => validateLookup value fp .wbShootCond fpOnOff
  | "LensModulationOpt" => validateLookup value fp .wbShootCond fpOnOff
  | "ColorSpace" => validateLookup value fp .colorSpace fpColorSpace
  | "DigitalTeleConv" =>
    if value = none then (0, fp.set .digitalTeleConv 1)
    else validateLookup value fp .digitalTeleConv fpOnOff
  | "PortraitEnhancer" =>
    if value = none then (0, fp.set .portraitEnhancer 1) else (0, fp)
  | _ => (-1, fp)

/-- The value `fp_parse_fp1` passes for an element. -/
def valueOf (prop : Element) : Option String := if prop.selfClosing then none else some prop.txt

/-- The loop of `fp_parse_fp1`. -/
def propLoop : List Element → FujiProfile → Int × FujiProfile
  | [], fp => (0, fp)
  | prop :: props, fp =>
    if prop.name = "RejectedValue" then propLoop props fp
    else
      let r := parseProp fp prop.name (valueOf prop)
      if r.1 ≠ 0 then r else propLoop props r.2

/-! ### Overlapping settings -/

/-- `WBShootCond` on means the white balance as shot. -/
def sanitizeWhiteBalance (fp : FujiProfile) : FujiProfile :=
  if fp.word .wbShootCond = 1 then
    (((fp.set .whiteBalance 1).set .wbColorTemp 0).set .wbShiftR 0).set .wbShiftB 0
  else fp

/-- The HDR setting goes into the dynamic range; FP_HDR_800_PLUS is 801. -/
def sanitizeDynamicRange (fp : FujiProfile) : FujiProfile :=
  if fp.word .hdr = 801 then fp.set .dynamicRange 800
  else if fp.word .hdr = 800 ∨ fp.word .hdr = 400 ∨ fp.word .hdr = 200 then
    fp.set .dynamicRange (fp.word .hdr)
  else fp

/-- A TIFF has no image quality and size. -/
def sanitizeImageType (fp : FujiProfile) : FujiProfile :=
  if fp.word .fileType = 9 ∨ fp.word .fileType = 11 then
    (fp.set .imageQuality 0).set .imageSize 0
  else fp

def sanitizeGrain (fp : FujiProfile) : FujiProfile :=
  if fp.word .grainEffect = 1 then fp.set .grainEffectSize 0 else fp

/-- The film simulations without colour: Acros, and monochrome with its filters. -/
def monochromeSims : List UInt32 := [12, 13, 14, 15, 6, 7, 8, 9]

def sanitizeColor (fp : FujiProfile) : FujiProfile :=
  if fp.word .filmSimulation ∈ monochromeSims then fp.set .color 0
  else if fp.word .filmSimulation = 10 then
    ((fp.set .color 0).set .monochromaticColorRG 0).set .blackImageTone 0
  else (fp.set .monochromaticColorRG 0).set .blackImageTone 0

/-- `sanitize_parsed_conv_profile`. -/
def sanitizeParsedConvProfile (fp : FujiProfile) : Int × FujiProfile :=
  let fp := sanitizeWhiteBalance fp
  -- FP_HDR_800_PLUS wants the priority FP_DRANGE_PRIO_HDR800PLUS
  if fp.word .hdr = 801 ∧ fp.word .wideDRange ≠ 3 then (-1, fp)
  else (0, sanitizeColor (sanitizeGrain (sanitizeImageType (sanitizeDynamicRange fp))))

/-- `fp_parse_fp1` from the first child of the root on. -/
def parseGroup (xml : Document) (fp : FujiProfile) : Int × FujiProfile :=
  match xml.child with
  | none => (-1, fp)
  | some group =>
    if group.name ≠ "PropertyGroup" then (-1, fp)
    else if group.children = [] then (-1, fp)
    else
      let r := propLoop (siblings group.children) fp
      if r.1 ≠ 0 then r
      -- what the sanitizer returns is not looked at
      else (0, (sanitizeParsedConvProfile r.2).2)

/-- `fp_parse_fp1` on the root element. -/
def parseRoot (xml : Document) (fp : FujiProfile) : Int × FujiProfile :=
  match xml.attr "application" with
  | none => (-1, fp)
  | some application =>
    if application ≠ "XRFC" then (-1, fp)
    else
      match xml.attr "version" with
      | none => (-1, fp)
      | some version =>
        if version = "1.10.0.0" ∨ version = "1.11.0.0" then
          parseGroup xml { fp with profileVersion := 1 }
        else if version = "1.12.0.0" then parseGroup xml { fp with profileVersion := 2 }
        else (-1, fp)

end Xml

/-- `fp_parse_fp1` on what `ezxml_parse_file` returns, NULL when there is no such file. -/
def fpParseFp1 (xml : Option Document) (_fp : FujiProfile) : Option (Int × FujiProfile) := do
  let fp := FujiProfile.zero
  let xml ← xml
  let name ← xml.name
  if name ≠ "ConversionProfile" then some (-1, fp) else some (Xml.parseRoot xml fp)

end Fuji
