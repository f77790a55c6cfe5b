/-
The d185 codec (`d185.c`): binary conversion profiles of PTP property 0xD185.

A blob is the number of its properties, the IOP code as a counted UTF-16 hex
string, padding up to offset 0x201, and the properties as 32-bit words.  The
functions here follow the source statement by statement; what they accept and
produce is stated in `D185Format.lean`.

Two things that C leaves open are explicit.  A read outside the blob is `none`.
The locals `value` and `value_size` that the encoder passes to `get_prop`
without initialising them are given by `Uninit`, one content for every
iteration of its loop.  `fp_set_error` only fills a diagnostic text and is left
out.
-/
import LibFuji.ByteCodec
import LibFuji.Profile

namespace Fuji

open ByteCodec

/-- `copy_value_if_valid`: the return code, and what `*output` holds afterwards. -/
def copyValueIfValid (value output : UInt32) : List FujiLookup → Int × UInt32
  | row :: rest => if value = row.value then (0, value) else copyValueIfValid value output rest
  | [] => if value = 0 then (0, output) else (-1, output)

/-- `copy_value_if_valid(value, &fp->f, tbl)`. -/
def copyIntoField (fp : FujiProfile) (f : FpField) (value : UInt32) (tbl : List FujiLookup) :
    Int × FujiProfile :=
  let r := copyValueIfValid value (fp.word f) tbl
  (r.1, fp.set f r.2)

/-- What the uninitialised locals of the encoder hold, by iteration of its loop:
`value` of `fp_create_d185` and `value_size` of `get_prop`. -/
structure Uninit where
  value : ℕ → UInt32
  valueSize : ℕ → UInt32

/-- What `fp_create_d185` does: its return value and the bytes it has written from
the start of the buffer on. -/
structure Created where
  rc : Int
  written : List UInt8
  deriving DecidableEq

namespace D185

/-- `parse_prop` of the decoder; the indices are those of `enum D185Props`. -/
def parseProp (fp : FujiProfile) (idx : ℕ) (value : UInt32) : Int × FujiProfile :=
  match idx with
  | 0 => copyIntoField fp .shootingCondition value fpShootingCondition
  | 1 => copyIntoField fp .fileType value fpFileType
  | 2 => copyIntoField fp .imageSize value fpImageSize
  | 3 => copyIntoField fp .imageQuality value fpImageQuality
  | 4 => copyIntoField fp .exposureBias value fpExposureBias
  | 5 => copyIntoField fp .dynamicRange value fpDrange
  | 6 => copyIntoField fp .wideDRange value fpDrangePriority
  | 7 => copyIntoField fp .filmSimulation value fpFilmSim
  | 8 =>
    -- FP_GRAIN_STRONG is 3, FP_GRAIN_SIZE_LARGE is 2
    let valueNoGrainSize := if value > 3 then value - 2 else value
    let r := copyIntoField fp .grainEffect valueNoGrainSize fpGrainEffect
    if r.1 ≠ 0 then (-1, r.2)
    else
      let r' := copyIntoField r.2 .grainEffectSize (value - valueNoGrainSize) fpGrainEffectSize
      if r'.1 ≠ 0 then (-1, r'.2) else (0, r'.2)
  | 9 => copyIntoField fp .chromeEffect value fpChromeEffect
  | 10 => copyIntoField (fp.set .wbShootCond value) .wbShootCond value fpWhiteBalanceShootCond
  | 11 => copyIntoField fp .whiteBalance value fpWhiteBalanceMode
  | 12 => copyIntoField fp .wbShiftR value fpRangeWbShift
  | 13 => copyIntoField fp .wbShiftB value fpRangeWbShift
  | 14 => copyIntoField fp .wbColorTemp value fpColorTemp
  | 15 => copyIntoField fp .highlightTone value (fpGetHighlightTone fp)
  | 16 => copyIntoField fp .shadowTone value (fpGetShadowTone fp)
  | 17 => copyIntoField fp .color value fpRange
  | 18 => copyIntoField fp .sharpness value fpRange
  | 19 => copyIntoField fp .noisReduction value fpNoiseReduction
  | 20 => copyIntoField fp .lensModulationOpt value fpLensModulation
  | 21 => copyIntoField fp .colorSpace value fpColorSpace
  | 22 => copyIntoField fp .blackImageTone value fpRangeMonoShiftWarmCold
  | 23 => (0, fp)
  | 24 => copyIntoField fp .colorChromeBlue value fpColorChromeBlue
  | 25 => copyIntoField fp .monochromaticColorRG value fpRangeMonoGreenMagenta
  | 26 => copyIntoField fp .clarity value fpClarity
  | 27 => (0, fp)
  | 28 => (0, fp)
  | _ => (-1, fp)

/-- `get_prop`: the return code and what `*value` holds afterwards.  `value` and
`valueSize` are the former contents of `*value` and of the local `value_size`. -/
def getProp (fp : FujiProfile) (idx : ℕ) (value valueSize : UInt32) : Int × UInt32 :=
  match idx with
  | 0 => copyValueIfValid (fp.word .shootingCondition) value fpShootingCondition
  | 1 => copyValueIfValid (fp.word .fileType) value fpFileType
  | 2 => copyValueIfValid (fp.word .imageSize) value fpImageSize
  | 3 => copyValueIfValid (fp.word .imageQuality) value fpImageQuality
  | 4 => copyValueIfValid (fp.word .exposureBias) value fpExposureBias
  | 5 => copyValueIfValid (fp.word .dynamicRange) value fpDrange
  | 6 => copyValueIfValid (fp.word .wideDRange) value fpDrangePriority
  | 7 => copyValueIfValid (fp.word .filmSimulation) value fpFilmSim
  | 8 =>
    let r := copyValueIfValid (fp.word .grainEffect) value fpGrainEffect
    let r' := copyValueIfValid (fp.word .grainEffectSize) valueSize fpGrainEffectSize
    -- rc |= ..., where both codes are 0 or -1
    (if r.1 = 0 then r'.1 else r.1, r.2 + r'.2)
  | 9 => copyValueIfValid (fp.word .chromeEffect) value fpChromeEffect
  | 10 => copyValueIfValid (fp.word .wbShootCond) value fpWhiteBalanceShootCond
  | 11 => copyValueIfValid (fp.word .whiteBalance) value fpWhiteBalanceMode
  | 12 => copyValueIfValid (fp.word .wbShiftR) value fpRangeWbShift
  | 13 => copyValueIfValid (fp.word .wbShiftB) value fpRangeWbShift
  | 14 => copyValueIfValid (fp.word .wbColorTemp) value fpColorTemp
  | 15 => copyValueIfValid (fp.word .highlightTone) value (fpGetHighlightTone fp)
  | 16 => copyValueIfValid (fp.word .shadowTone) value (fpGetShadowTone fp)
  | 17 => copyValueIfValid (fp.word .color) value fpRange
  | 18 => copyValueIfValid (fp.word .sharpness) value fpRange
  | 19 => copyValueIfValid (fp.word .noisReduction) value fpNoiseReduction
  | 20 => copyValueIfValid (fp.word .lensModulationOpt) value fpLensModulation
  | 21 => copyValueIfValid (fp.word .colorSpace) value fpColorSpace
  | 22 => copyValueIfValid (fp.word .blackImageTone) value fpRangeMonoShiftWarmCold
  | 23 => (0, 0)
  | 24 => copyValueIfValid (fp.word .colorChromeBlue) value fpColorChromeBlue
  | 25 => copyValueIfValid (fp.word .monochromaticColorRG) value fpRangeMonoGreenMagenta
  | 26 => copyValueIfValid (fp.word .clarity) value fpClarity
  | 27 => (0, 0)
  | 28 => (0, 0)
  | _ => (-1, value)

/-! ### Encoding -/

/-- The character code of an upper-case hexadecimal digit. -/
def hexChar (d : ℕ) : ℕ := if d < 10 then 0x30 + d else 0x41 + (d - 10)

/-- The character codes `snprintf` writes for `%08X`. -/
def hex8 (v : UInt32) : List ℕ := (leDigits 16 8 v.toNat).reverse.map hexChar

/-- The loop of `fp_create_d185` over the properties `i, …, i + n - 1`, after `bin`
has been written. -/
def packProps (fp : FujiProfile) (u : Uninit) : ℕ → ℕ → List UInt8 → Created
  | 0, _, bin => ⟨bin.length, bin⟩
  | n + 1, i, bin =>
    let r := getProp fp i (u.value i) (u.valueSize i)
    if r.1 ≠ 0 then ⟨r.1, bin⟩
    else packProps fp u n (i + 1) (bin ++ leBytes 4 r.2.toNat)

/-- What `fp_create_d185` writes before the properties: the head with the IOP code,
and zeros up to offset 0x201. -/
def writeHead (iopCode : UInt32) : List UInt8 :=
  let tempIopCode := hex8 iopCode
  let bin := leBytes 2 0x1d
  let bin := bin ++ leBytes 1 (tempIopCode.length + 1)
  let bin := bin ++ tempIopCode.flatMap (leBytes 2)
  let bin := bin ++ leBytes 2 0
  bin ++ List.replicate (0x201 - bin.length) 0

/-! ### Decoding -/

/-- The loop of `fp_parse_d185` over the characters `i, …, i + n - 1` of the IOP
string: the code accumulated so far goes in, and comes out unless a character is
refused. -/
def iopLoop (bin : List UInt8) : ℕ → ℕ → ℕ → UInt32 → Option (Option UInt32)
  | 0, _, _, code => some (some code)
  | n + 1, i, of, code => do
    let wchr ← readLe bin of 2
    if wchr = 0 then some (some code)
    else if i > 8 then some none
    else if 0x30 ≤ wchr ∧ wchr ≤ 0x39 then
      iopLoop bin n (i + 1) (of + 2) (code * 16 + UInt32.ofNat (wchr - 0x30))
    else if 0x41 ≤ wchr ∧ wchr ≤ 0x46 then
      iopLoop bin n (i + 1) (of + 2) (code * 16 + UInt32.ofNat (wchr - 0x41 + 10))
    else some none

/-- The loop of `fp_parse_d185` over the properties `i, …, i + n - 1`. -/
def propsLoop (bin : List UInt8) : ℕ → ℕ → ℕ → FujiProfile → Option (Int × FujiProfile)
  | 0, _, _, fp => some (0, fp)
  | n + 1, i, of, fp => do
    let (value, of) ←
      if of + 4 > bin.length then some (0, of)
      else (readLe bin of 4).map fun v => (UInt32.ofNat v, of + 4)
    let r := parseProp fp i value
    if r.1 ≠ 0 then some (-1, r.2) else propsLoop bin n (i + 1) of r.2

end D185

open D185

/-- `fp_create_d185` on a buffer of `len` bytes. -/
def fpCreateD185 (fp : FujiProfile) (u : Uninit) (len : ℕ) : Created :=
  if ¬ len ≥ 0x274 then ⟨-1, []⟩
  else packProps fp u 0x1d 0 (writeHead (fp.word .iopCode))

/-- `fp_parse_d185` on a blob: the return code and the profile it leaves in `*fp`. -/
def fpParseD185 (bin : List UInt8) (fp : FujiProfile) : Option (Int × FujiProfile) :=
  if bin.length < 0x200 then some (-1, fp)
  else do
    let fp := FujiProfile.zero.set .structVer 0x10000
    let nProps ← readLe bin 0 2
    let strLen ← readLe bin 2 1
    match ← iopLoop bin strLen 0 3 0 with
    | none => some (-1, fp)
    | some iopCode => propsLoop bin nProps 0 0x201 (fp.set .iopCode iopCode)

end Fuji
