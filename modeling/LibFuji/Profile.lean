/-
Conversion profiles (`fp.h`) and the lookup tables of `data.c`.

`struct FujiProfile` is a version number and one 32-bit word for each of its
`uint32_t` members; `FpField` names those members.  A `struct FujiLookup` table
relates the text a setting has in an XML profile to the number it has in a
profile; the NULL key that ends a table is the end of its list.

The last section is the part of `data.c` that works on whole profiles: the
choice of the tone tables by the image processor, and `fp_apply_profile`.
-/
import LibFuji.Assignments

namespace Fuji

/-- The 32-bit members of `struct FujiProfile`. -/
inductive FpField
  | structVer | iopCode | tetherRAWConditonCode | editable | shootingCondition | fileType
  | imageSize | rotationAngle | imageQuality | exposureBias | dynamicRange | wideDRange
  | filmSimulation | blackImageTone | monochromaticColorRG | grainEffect | grainEffectSize
  | chromeEffect | colorChromeBlue | smoothSkinEffect | wbShootCond | whiteBalance
  | wbShiftR | wbShiftB | wbColorTemp | highlightTone | shadowTone | color | sharpness
  | noisReduction | clarity | lensModulationOpt | colorSpace | hdr | digitalTeleConv
  | portraitEnhancer
  deriving DecidableEq, Repr

/-- The name of a member, which is that of its element in an XML profile. -/
def FpField.name : FpField → String
  | .structVer => "StructVer"
  | .iopCode => "IOPCode"
  | .tetherRAWConditonCode => "TetherRAWConditonCode"
  | .editable => "Editable"
  | .shootingCondition => "ShootingCondition"
  | .fileType => "FileType"
  | .imageSize => "ImageSize"
  | .rotationAngle => "RotationAngle"
  | .imageQuality => "ImageQuality"
  | .exposureBias => "ExposureBias"
  | .dynamicRange => "DynamicRange"
  | .wideDRange => "WideDRange"
  | .filmSimulation => "FilmSimulation"
  | .blackImageTone => "BlackImageTone"
  | .monochromaticColorRG => "MonochromaticColor_RG"
  | .grainEffect => "GrainEffect"
  | .grainEffectSize => "GrainEffectSize"
  | .chromeEffect => "ChromeEffect"
  | .colorChromeBlue => "ColorChromeBlue"
  | .smoothSkinEffect => "SmoothSkinEffect"
  | .wbShootCond => "WBShootCond"
  | .whiteBalance => "WhiteBalance"
  | .wbShiftR => "WBShiftR"
  | .wbShiftB => "WBShiftB"
  | .wbColorTemp => "WBColorTemp"
  | .highlightTone => "HighlightTone"
  | .shadowTone => "ShadowTone"
  | .color => "Color"
  | .sharpness => "Sharpness"
  | .noisReduction => "NoisReduction"
  | .clarity => "Clarity"
  | .lensModulationOpt => "LensModulationOpt"
  | .colorSpace => "ColorSpace"
  | .hdr => "HDR"
  | .digitalTeleConv => "DigitalTeleConv"
  | .portraitEnhancer => "PortraitEnhancer"

/-- `struct FujiProfile`. -/
@[ext] structure FujiProfile where
  profileVersion : Int
  word : FpField → UInt32

namespace FujiProfile

/-- `fp->f = v`. -/
def set (fp : FujiProfile) (f : FpField) (v : UInt32) : FujiProfile :=
  { fp with word := Function.update fp.word f v }

/-- `memset(fp, 0, sizeof(struct FujiProfile))`. -/
def zero : FujiProfile := ⟨0, fun _ => 0⟩

/-- Carry out a list of member assignments. -/
def assign (fp : FujiProfile) (ws : List (FpField × UInt32)) : FujiProfile :=
  { fp with word := Assignments.run ws fp.word }

@[simp] theorem zero_word (f : FpField) : zero.word f = 0 := rfl

@[simp] theorem zero_version : zero.profileVersion = 0 := rfl

@[simp] theorem set_version (fp : FujiProfile) (f : FpField) (v : UInt32) :
    (fp.set f v).profileVersion = fp.profileVersion := rfl

@[simp] theorem set_word_self (fp : FujiProfile) (f : FpField) (v : UInt32) :
    (fp.set f v).word f = v := Function.update_self ..

theorem set_word_of_ne (fp : FujiProfile) {f g : FpField} (v : UInt32) (h : g ≠ f) :
    (fp.set f v).word g = fp.word g := Function.update_of_ne h ..

@[simp] theorem set_word_eq (fp : FujiProfile) (f : FpField) : fp.set f (fp.word f) = fp := by
  simp [set]

@[simp] theorem assign_nil (fp : FujiProfile) : fp.assign [] = fp := rfl

@[simp] theorem assign_cons (fp : FujiProfile) (w : FpField × UInt32)
    (ws : List (FpField × UInt32)) : fp.assign (w :: ws) = (fp.set w.1 w.2).assign ws := rfl

@[simp] theorem assign_append (fp : FujiProfile) (ws vs : List (FpField × UInt32)) :
    fp.assign (ws ++ vs) = (fp.assign ws).assign vs := by simp [assign]

@[simp] theorem assign_version (fp : FujiProfile) (ws : List (FpField × UInt32)) :
    (fp.assign ws).profileVersion = fp.profileVersion := rfl

theorem assign_word (fp : FujiProfile) (ws : List (FpField × UInt32)) (f : FpField) :
    (fp.assign ws).word f = (Assignments.last ws f).getD (fp.word f) :=
  Assignments.run_apply ws fp.word f

theorem assign_word_congr {fp fp' : FujiProfile} {f : FpField} (h : fp.word f = fp'.word f)
    (ws : List (FpField × UInt32)) : (fp.assign ws).word f = (fp'.assign ws).word f := by
  rw [assign_word, assign_word, h]

theorem assign_self (fp : FujiProfile) (ws : List (FpField × UInt32)) :
    (fp.assign ws).assign ws = fp.assign ws :=
  FujiProfile.ext rfl (Assignments.run_run ws fp.word)

end FujiProfile

/-! ### Lookup tables -/

/-- `struct FujiLookup`. -/
structure FujiLookup where
  key : String
  value : UInt32
  deriving DecidableEq, Repr

/-- The numbers a table lists. -/
def FujiLookup.values (tbl : List FujiLookup) : List UInt32 := tbl.map FujiLookup.value

def fpStructVer : List FujiLookup := [⟨"65536", 0x10000⟩]

def fpFilmSim : List FujiLookup :=
  [⟨"Provia", 1⟩, ⟨"Velvia", 2⟩, ⟨"Astia", 3⟩, ⟨"Classic", 11⟩, ⟨"ClassicNEGA", 17⟩,
    ⟨"NEGAStd", 5⟩, ⟨"NEGAhi", 4⟩, ⟨"AcrosR", 14⟩, ⟨"AcrosG", 15⟩, ⟨"AcrosYe", 13⟩,
    ⟨"Acros", 12⟩, ⟨"Eterna", 16⟩, ⟨"BW", 6⟩, ⟨"BYe", 7⟩, ⟨"BR", 8⟩, ⟨"BG", 9⟩,
    ⟨"Sepia", 10⟩, ⟨"NostalgicNEGA", 11⟩]

def fpOnOff : List FujiLookup := [⟨"ON", 1⟩, ⟨"OFF", 0⟩]

def fpShootingCondition : List FujiLookup := [⟨"ON", 1⟩, ⟨"OFF", 2⟩]

def fpDrange : List FujiLookup := [⟨"DR100", 100⟩, ⟨"DR200", 200⟩, ⟨"DR400", 400⟩]

def fpHdr : List FujiLookup :=
  [⟨"200", 200⟩, ⟨"400", 400⟩, ⟨"800", 800⟩, ⟨"800PLUS", 801⟩, ⟨"", 0⟩]

def fpDrangePriority : List FujiLookup :=
  [⟨"OFF", 0⟩, ⟨"0", 0⟩, ⟨"P1", 1⟩, ⟨"P2", 2⟩, ⟨"P3", 3⟩]

def fpColorChromeBlue : List FujiLookup := [⟨"OFF", 0⟩, ⟨"WEAK", 1⟩, ⟨"STRONG", 2⟩]

def fpBool : List FujiLookup := [⟨"TRUE", 1⟩, ⟨"FALSE", 0⟩]

def fpGrainEffect : List FujiLookup := [⟨"OFF", 1⟩, ⟨"WEAK", 2⟩, ⟨"STRONG", 3⟩]

def fpChromeEffect : List FujiLookup := [⟨"OFF", 1⟩, ⟨"WEAK", 2⟩, ⟨"STRONG", 3⟩]

def fpFileType : List FujiLookup := [⟨"JPG", 7⟩, ⟨"TIF", 9⟩, ⟨"TIF_16BIT", 11⟩]

def fpGrainEffectSize : List FujiLookup := [⟨"SMALL", 0⟩, ⟨"LARGE", 2⟩]

def fpImageSize : List FujiLookup :=
  [⟨"L3x2", 7⟩, ⟨"L16x9", 8⟩, ⟨"L1x1", 9⟩, ⟨"M3x2", 4⟩, ⟨"M16x9", 5⟩, ⟨"M1x1", 6⟩,
    ⟨"S3x2", 1⟩, ⟨"S16x9", 2⟩, ⟨"S1x1", 3⟩]

def fpImageQuality : List FujiLookup := [⟨"Fine", 2⟩, ⟨"Normal", 3⟩]

def fpExposureBias : List FujiLookup :=
  [⟨"P3P00", 3000⟩, ⟨"P2P67", 2667⟩, ⟨"P2P33", 2333⟩, ⟨"P2P0", 2000⟩, ⟨"P1P67", 1667⟩,
    ⟨"P1P33", 1333⟩, ⟨"P1P00", 1000⟩, ⟨"P0P67", 667⟩, ⟨"P0P33", 333⟩, ⟨"0", 0⟩,
    ⟨"M0P33", 0xfffffeb3⟩, ⟨"M0P67", 0xfffffd65⟩, ⟨"M1P00", 0xfffffc18⟩,
    ⟨"M1P33", 0xfffffacb⟩, ⟨"M1P67", 0xfffff97d⟩, ⟨"M2P00", 0xfffff830⟩,
    ⟨"M2P33", 0xfffff6e3⟩, ⟨"M2P67", 0xfffff595⟩, ⟨"M3P00", 0xfffff448⟩]

def fpWhiteBalanceMode : List FujiLookup :=
  [⟨"AsShot", 0⟩, ⟨"INVALID", 1⟩, ⟨"Auto", 2⟩, ⟨"Custom1", 0x8008⟩, ⟨"Custom2", 0x8009⟩,
    ⟨"Custom3", 0x800a⟩, ⟨"Temperature", 0x8007⟩, ⟨"Daylight", 4⟩, ⟨"Shade", 0x8006⟩,
    ⟨"FLight1", 0x8001⟩, ⟨"FLight2", 0x8002⟩, ⟨"FLight3", 0x8003⟩, ⟨"Incand", 6⟩,
    ⟨"Uwater", 8⟩]

def fpWhiteBalanceShootCond : List FujiLookup := [⟨"ON", 1⟩, ⟨"OFF", 2⟩]

/-- The rows from 2500 K to 9990 K, in steps of 10 K, follow one pattern; the row
for 10000 K does not. -/
def fpColorTemp : List FujiLookup :=
  [⟨"0K", 0⟩, ⟨"2200K", 2200⟩]
    ++ (List.range 750).map (fun k =>
      ⟨toString (2500 + 10 * k) ++ "K", UInt32.ofNat (2500 + 10 * k)⟩)
    ++ [⟨"10000K", 1000⟩]

def fpRange : List FujiLookup :=
  [⟨"4", 40⟩, ⟨"3", 30⟩, ⟨"2", 20⟩, ⟨"1", 10⟩, ⟨"0", 0⟩, ⟨"-1", -10⟩, ⟨"-2", -20⟩,
    ⟨"-3", -30⟩, ⟨"-4", -40⟩]

def fpRangeWbShift : List FujiLookup :=
  [⟨"9", 90⟩, ⟨"8", 80⟩, ⟨"7", 70⟩, ⟨"6", 60⟩, ⟨"5", 50⟩, ⟨"4", 40⟩, ⟨"3", 30⟩, ⟨"2", 20⟩,
    ⟨"1", 10⟩, ⟨"0", 0⟩, ⟨"-1", -10⟩, ⟨"-2", -20⟩, ⟨"-3", -30⟩, ⟨"-4", -40⟩, ⟨"-5", -50⟩,
    ⟨"-6", -60⟩, ⟨"-7", -70⟩, ⟨"-8", -80⟩, ⟨"-9", -90⟩]

def fpRangeMonoShiftWarmCold : List FujiLookup :=
  [⟨"18", 180⟩, ⟨"17", 170⟩, ⟨"16", 160⟩, ⟨"15", 150⟩, ⟨"14", 140⟩, ⟨"13", 130⟩,
    ⟨"12", 120⟩, ⟨"11", 110⟩, ⟨"10", 100⟩, ⟨"9", 90⟩, ⟨"8", 80⟩, ⟨"7", 70⟩, ⟨"6", 60⟩,
    ⟨"5", 50⟩, ⟨"4", 40⟩, ⟨"3", 30⟩, ⟨"2", 20⟩, ⟨"1", 10⟩, ⟨"0", 0⟩, ⟨"-1", -10⟩,
    ⟨"-2", -20⟩, ⟨"-3", -30⟩, ⟨"-4", -40⟩, ⟨"-5", -50⟩, ⟨"-6", -60⟩, ⟨"-7", -70⟩,
    ⟨"-8", -80⟩, ⟨"-9", -90⟩, ⟨"-10", -100⟩, ⟨"-11", -110⟩, ⟨"-12", -120⟩, ⟨"-13", -130⟩,
    ⟨"-14", -140⟩, ⟨"-15", -150⟩, ⟨"-16", -160⟩, ⟨"-17", -170⟩, ⟨"-18", -180⟩]

def fpRangeMonoGreenMagenta : List FujiLookup :=
  [⟨"18", 180⟩, ⟨"17", 170⟩, ⟨"16", 160⟩, ⟨"15", 150⟩, ⟨"14", 140⟩, ⟨"13", 130⟩,
    ⟨"12", 120⟩, ⟨"11", 110⟩, ⟨"10", 100⟩, ⟨"9", 90⟩, ⟨"8", 80⟩, ⟨"7", 70⟩, ⟨"6", 60⟩,
    ⟨"5", 50⟩, ⟨"4", 40⟩, ⟨"3", 30⟩, ⟨"2", 20⟩, ⟨"1", 10⟩, ⟨"0", 0⟩, ⟨"-1", -10⟩,
    ⟨"-2", -20⟩, ⟨"-3", -30⟩, ⟨"-4", -40⟩, ⟨"-5", -50⟩, ⟨"-6", -60⟩, ⟨"-7", -70⟩,
    ⟨"-8", -80⟩, ⟨"-9", -90⟩, ⟨"-10", -100⟩, ⟨"-11", -110⟩, ⟨"-12", -120⟩, ⟨"-13", -130⟩,
    ⟨"-14", -140⟩, ⟨"-15", -150⟩, ⟨"-16", -160⟩, ⟨"-17", -170⟩, ⟨"-18", -180⟩]

def fpNoiseReduction : List FujiLookup :=
  [⟨"4", 0x5000⟩, ⟨"3", 0x6000⟩, ⟨"2", 0⟩, ⟨"1", 0x1000⟩, ⟨"0", 0x2000⟩, ⟨"-1", 0x3000⟩,
    ⟨"-2", 0x4000⟩, ⟨"-3", 0x7000⟩, ⟨"-4", 0x8000⟩]

def fpClarity : List FujiLookup :=
  [⟨"5", 50⟩, ⟨"4", 40⟩, ⟨"3", 30⟩, ⟨"2", 20⟩, ⟨"1", 10⟩, ⟨"0", 0⟩, ⟨"-1", -10⟩, ⟨"-2", -20⟩,
    ⟨"-3", -30⟩, ⟨"-4", -40⟩, ⟨"-5", -50⟩]

def fpRangeP4N2 : List FujiLookup :=
  [⟨"4", 40⟩, ⟨"3", 30⟩, ⟨"2", 20⟩, ⟨"1", 10⟩, ⟨"0", 0⟩, ⟨"-1", -10⟩, ⟨"-2", -20⟩]

def fpRangeP4N4Halfs : List FujiLookup :=
  [⟨"4", 40⟩, ⟨"3.5", 35⟩, ⟨"3", 30⟩, ⟨"2.5", 25⟩, ⟨"2", 20⟩, ⟨"1.5", 15⟩, ⟨"1", 10⟩,
    ⟨"0.5", 5⟩, ⟨"0", 0⟩, ⟨"-0.5", -5⟩, ⟨"-1", -10⟩, ⟨"-1.5", -15⟩, ⟨"-2", -20⟩,
    ⟨"-2.5", -25⟩, ⟨"-3", -30⟩, ⟨"-3.5", -35⟩, ⟨"-4", -40⟩]

def fpLensModulation : List FujiLookup := [⟨"ON", 1⟩, ⟨"OFF", 2⟩]

def fpColorSpace : List FujiLookup := [⟨"sRGB", 1⟩, ⟨"Adobe sRGB", 2⟩, ⟨"AdobeRGB", 3⟩]

/-! ### Whole profiles -/

/-- `is_xprocessor5`. -/
def isXprocessor5 (iop : UInt32) : Bool := (iop &&& 0x00ffff00) == 0x00179500

/-- The table of both tone settings under an IOP code. -/
def toneTable (iop : UInt32) : List FujiLookup :=
  if isXprocessor5 iop then fpRangeP4N4Halfs else fpRangeP4N2

/-- `fp_get_highlight_tone`. -/
def fpGetHighlightTone (fp : FujiProfile) : List FujiLookup := toneTable (fp.word .iopCode)

/-- `fp_get_shadow_tone`. -/
def fpGetShadowTone (fp : FujiProfile) : List FujiLookup := toneTable (fp.word .iopCode)

/-- The members `fp_apply_profile` copies, in its order. -/
def mergedFields : List FpField :=
  [.shootingCondition, .fileType, .imageSize, .rotationAngle, .imageQuality, .exposureBias,
    .dynamicRange, .wideDRange, .filmSimulation, .blackImageTone, .monochromaticColorRG,
    .grainEffect, .grainEffectSize, .chromeEffect, .colorChromeBlue, .smoothSkinEffect,
    .wbShootCond, .whiteBalance, .wbShiftR, .wbShiftB, .wbColorTemp, .highlightTone,
    .shadowTone, .color, .sharpness, .noisReduction]

/-- `fp_apply_profile`: copy the merged members of `src` into `dst`. -/
def fpApplyProfile (src dst : FujiProfile) : Int × FujiProfile :=
  (0, mergedFields.foldl (fun fp f => fp.set f (src.word f)) dst)

theorem fpApplyProfile_eq_assign (src dst : FujiProfile) :
    fpApplyProfile src dst = (0, dst.assign (mergedFields.map fun f => (f, src.word f))) := by
  simp [fpApplyProfile, mergedFields, FujiProfile.assign, FujiProfile.set]

/-- **The merge, member by member.** -/
theorem fpApplyProfile_word (src dst : FujiProfile) (f : FpField) :
    (fpApplyProfile src dst).2.word f = if f ∈ mergedFields then src.word f else dst.word f := by
  rw [fpApplyProfile_eq_assign, FujiProfile.assign_word]
  by_cases hf : f ∈ mergedFields
  · rw [if_pos hf, Assignments.last_of_agree (v := src.word f)
      (List.mem_map.mpr ⟨f, hf, rfl⟩), Option.getD_some]
    intro v hv
    obtain ⟨g, -, hg⟩ := List.mem_map.mp hv
    obtain ⟨rfl, rfl⟩ := Prod.mk.inj hg
    rfl
  · rw [if_neg hf, Assignments.last_eq_none_iff.mpr, Option.getD_none]
    intro v hv
    obtain ⟨g, hg, hgf⟩ := List.mem_map.mp hv
    obtain ⟨rfl, rfl⟩ := Prod.mk.inj hgf
    exact hf hg

end Fuji
