/-
The d185 format as a table of slots.

`layout` lists what the 29 words of a blob stand for: a setting with the table of
its values (the tone tables depend on the IOP code), the packed grain word, or a
reserved word.  Both switches of the codec are instances of it:

* `parseProp_of_admits`, `parseProp_of_not_admits` — the decoder stores exactly
  the words a slot admits, and stores them as `Slot.writes` says;
* `getProp_of_fits`, `getProp_of_not_fits` — the encoder packs exactly the members
  that fit a slot.  Where a member is 0 and the table does not list 0, it reports
  success without writing anything (`Slot.Unwritten`).
-/
import LibFuji.D185

namespace Fuji

open ByteCodec

/-! ### Copying a value that a table lists -/

section Copy

variable {value output : UInt32} {tbl : List FujiLookup}

theorem copyValueIfValid_of_mem (h : value ∈ FujiLookup.values tbl) :
    copyValueIfValid value output tbl = (0, value) := by
  induction tbl with
  | nil => simp [FujiLookup.values] at h
  | cons row rest ih =>
    rw [copyValueIfValid]
    by_cases hv : value = row.value
    · rw [if_pos hv]
    · rw [if_neg hv]
      refine ih ?_
      rcases List.mem_cons.mp h with h | h
      · exact absurd h hv
      · exact h

theorem copyValueIfValid_of_not_mem (h : value ∉ FujiLookup.values tbl) :
    copyValueIfValid value output tbl = if value = 0 then (0, output) else (-1, output) := by
  induction tbl with
  | nil => rfl
  | cons row rest ih =>
    rw [FujiLookup.values, List.map_cons, List.mem_cons, not_or] at h
    rw [copyValueIfValid, if_neg h.1, ih h.2]

theorem copyValueIfValid_fst : (copyValueIfValid value output tbl).1
    = if value = 0 ∨ value ∈ FujiLookup.values tbl then 0 else -1 := by
  by_cases h : value ∈ FujiLookup.values tbl
  · simp [copyValueIfValid_of_mem h, h]
  · rw [copyValueIfValid_of_not_mem h]
    by_cases hv : value = 0 <;> simp [hv, h]

/-- A member that is 0 holds the value after an accepted copy. -/
theorem copyIntoField_of_admits {fp : FujiProfile} {f : FpField} (hf : fp.word f = 0)
    (h : value = 0 ∨ value ∈ FujiLookup.values tbl) :
    copyIntoField fp f value tbl = (0, fp.set f value) := by
  rw [copyIntoField]
  by_cases hv : value ∈ FujiLookup.values tbl
  · rw [copyValueIfValid_of_mem hv]
  · obtain rfl : value = 0 := h.resolve_right hv
    rw [copyValueIfValid_of_not_mem hv, if_pos rfl, hf]

theorem copyIntoField_fst {fp : FujiProfile} {f : FpField} :
    (copyIntoField fp f value tbl).1
      = if value = 0 ∨ value ∈ FujiLookup.values tbl then 0 else -1 :=
  copyValueIfValid_fst

end Copy

namespace D185

/-- What a word of a blob stands for. -/
inductive Slot
  | setting (f : FpField) (tbl : UInt32 → List FujiLookup)
  | grain
  | reserved

/-- The slots of the 29 words; the tables are those of the given IOP code. -/
def layout : List Slot :=
  [.setting .shootingCondition fun _ => fpShootingCondition,
    .setting .fileType fun _ => fpFileType,
    .setting .imageSize fun _ => fpImageSize,
    .setting .imageQuality fun _ => fpImageQuality,
    .setting .exposureBias fun _ => fpExposureBias,
    .setting .dynamicRange fun _ => fpDrange,
    .setting .wideDRange fun _ => fpDrangePriority,
    .setting .filmSimulation fun _ => fpFilmSim,
    .grain,
    .setting .chromeEffect fun _ => fpChromeEffect,
    .setting .wbShootCond fun _ => fpWhiteBalanceShootCond,
    .setting .whiteBalance fun _ => fpWhiteBalanceMode,
    .setting .wbShiftR fun _ => fpRangeWbShift,
    .setting .wbShiftB fun _ => fpRangeWbShift,
    .setting .wbColorTemp fun _ => fpColorTemp,
    .setting .highlightTone toneTable,
    .setting .shadowTone toneTable,
    .setting .color fun _ => fpRange,
    .setting .sharpness fun _ => fpRange,
    .setting .noisReduction fun _ => fpNoiseReduction,
    .setting .lensModulationOpt fun _ => fpLensModulation,
    .setting .colorSpace fun _ => fpColorSpace,
    .setting .blackImageTone fun _ => fpRangeMonoShiftWarmCold,
    .reserved,
    .setting .colorChromeBlue fun _ => fpColorChromeBlue,
    .setting .monochromaticColorRG fun _ => fpRangeMonoGreenMagenta,
    .setting .clarity fun _ => fpClarity,
    .reserved,
    .reserved]

theorem layout_length : layout.length = 29 := rfl

theorem lt_of_layout {i : ℕ} {s : Slot} (h : layout[i]? = some s) : i < 29 := by
  rw [← layout_length]
  exact (List.getElem?_eq_some_iff.mp h).1

theorem exists_slot {i : ℕ} (hi : i < 29) : ∃ s, layout[i]? = some s :=
  ⟨_, List.getElem?_eq_getElem (layout_length ▸ hi)⟩

namespace Slot

/-- The members a slot carries. -/
def fields : Slot → List FpField
  | setting f _ => [f]
  | grain => [.grainEffect, .grainEffectSize]
  | reserved => []

/-- The grain effect of a packed grain word; the rest of the word is the size. -/
def grainOf (w : UInt32) : UInt32 := if w > 3 then w - 2 else w

/-- How a word is stored in a profile. -/
def writes (w : UInt32) : Slot → List (FpField × UInt32)
  | setting f _ => [(f, w)]
  | grain => [(.grainEffect, grainOf w), (.grainEffectSize, w - grainOf w)]
  | reserved => []

/-- The word a profile has for a slot. -/
def fetch (p : FujiProfile) : Slot → UInt32
  | setting f _ => p.word f
  | grain => p.word .grainEffect + p.word .grainEffectSize
  | reserved => 0

/-- The words the decoder takes under an IOP code. -/
def Admits (iop w : UInt32) : Slot → Prop
  | setting _ tbl => w = 0 ∨ w ∈ FujiLookup.values (tbl iop)
  | grain => w ≤ 5
  | reserved => True

/-- The profiles the encoder takes. -/
def Fits (p : FujiProfile) : Slot → Prop
  | setting f tbl => p.word f = 0 ∨ p.word f ∈ FujiLookup.values (tbl (p.word .iopCode))
  | grain => (p.word .grainEffect = 0 ∨ p.word .grainEffect ∈ FujiLookup.values fpGrainEffect) ∧
      (p.word .grainEffectSize = 0 ∨
        p.word .grainEffectSize ∈ FujiLookup.values fpGrainEffectSize)
  | reserved => True

/-- The profiles that leave the encoder's `value` unwritten: the member is 0, which
the table of the slot does not list. -/
def Unwritten (p : FujiProfile) : Slot → Prop
  | setting f tbl => p.word f = 0 ∧ 0 ∉ FujiLookup.values (tbl (p.word .iopCode))
  | grain => p.word .grainEffect = 0
  | reserved => False

/-- Every member of a slot holds a number its own table lists. -/
def Listed (p : FujiProfile) : Slot → Prop
  | setting f tbl => p.word f ∈ FujiLookup.values (tbl (p.word .iopCode))
  | grain => p.word .grainEffect ∈ FujiLookup.values fpGrainEffect ∧
      p.word .grainEffectSize ∈ FujiLookup.values fpGrainEffectSize
  | reserved => True

instance (iop w : UInt32) (s : Slot) : Decidable (s.Admits iop w) :=
  match s with
  | setting _ _ => inferInstanceAs (Decidable (_ ∨ _))
  | grain => inferInstanceAs (Decidable (_ ≤ _))
  | reserved => inferInstanceAs (Decidable True)

instance (p : FujiProfile) (s : Slot) : Decidable (s.Fits p) :=
  match s with
  | setting _ _ => inferInstanceAs (Decidable (_ ∨ _))
  | grain => inferInstanceAs (Decidable (_ ∧ _))
  | reserved => inferInstanceAs (Decidable True)

instance (p : FujiProfile) (s : Slot) : Decidable (s.Unwritten p) :=
  match s with
  | setting _ _ => inferInstanceAs (Decidable (_ ∧ _))
  | grain => inferInstanceAs (Decidable (_ = _))
  | reserved => inferInstanceAs (Decidable False)

instance (p : FujiProfile) (s : Slot) : Decidable (s.Listed p) :=
  match s with
  | setting _ _ => inferInstanceAs (Decidable (_ ∈ _))
  | grain => inferInstanceAs (Decidable (_ ∧ _))
  | reserved => inferInstanceAs (Decidable True)

/-- The word the encoder packs when `value` held `v` before: the leftover where
nothing is written. -/
def packed (p : FujiProfile) (v : UInt32) : Slot → UInt32
  | setting f tbl => if (setting f tbl).Unwritten p then v else p.word f
  | grain => (if p.word .grainEffect = 0 then v else p.word .grainEffect)
      + p.word .grainEffectSize
  | reserved => 0

theorem packed_of_not_unwritten {p : FujiProfile} {v : UInt32} {s : Slot}
    (h : ¬ s.Unwritten p) : s.packed p v = s.fetch p := by
  cases s with
  | setting f tbl => exact if_neg h
  | grain =>
    have h0 : p.word .grainEffect ≠ 0 := h
    rw [packed, if_neg h0, fetch]
  | reserved => rfl

theorem Listed.fits {p : FujiProfile} {s : Slot} (h : s.Listed p) : s.Fits p := by
  cases s with
  | setting f tbl => exact .inr h
  | grain => exact ⟨.inr h.1, .inr h.2⟩
  | reserved => trivial

theorem Listed.not_unwritten {p : FujiProfile} {s : Slot} (h : s.Listed p) :
    ¬ s.Unwritten p := by
  cases s with
  | setting f tbl => exact fun hu => hu.2 (hu.1 ▸ h)
  | grain =>
    intro hu
    have h1 : p.word .grainEffect ∈ FujiLookup.values fpGrainEffect := h.1
    rw [show p.word .grainEffect = 0 from hu] at h1
    exact absurd h1 (by decide)
  | reserved => exact id

end Slot

/-! ### The decoder's switch -/

/-- Every setting is copied into its member, whatever that held. -/
theorem parseProp_setting {i : ℕ} {f : FpField} {tbl : UInt32 → List FujiLookup}
    (hs : layout[i]? = some (.setting f tbl)) (p : FujiProfile) (w : UInt32) :
    parseProp p i w = copyIntoField p f w (tbl (p.word .iopCode)) ∨
      parseProp p i w = copyIntoField (p.set f w) f w (tbl (p.word .iopCode)) := by
  have hi := lt_of_layout hs
  interval_cases i <;> cases hs <;> first | exact .inl rfl | exact .inr rfl

theorem parseProp_reserved {i : ℕ} (hs : layout[i]? = some .reserved) (p : FujiProfile)
    (w : UInt32) : parseProp p i w = (0, p) := by
  have hi := lt_of_layout hs
  interval_cases i <;> cases hs <;> rfl

theorem layout_grain {i : ℕ} (hs : layout[i]? = some .grain) : i = 8 := by
  have hi := lt_of_layout hs
  interval_cases i <;> first | rfl | cases hs

theorem parseProp_past {i : ℕ} (hi : 29 ≤ i) (p : FujiProfile) (w : UInt32) :
    parseProp p i w = (-1, p) := by
  obtain ⟨k, rfl⟩ : ∃ k, i = k + 29 := ⟨i - 29, by omega⟩
  rfl

theorem grainOf_mem {w : UInt32} (h : w ≤ 5) :
    (Slot.grainOf w = 0 ∨ Slot.grainOf w ∈ FujiLookup.values fpGrainEffect) ∧
      (w - Slot.grainOf w = 0 ∨
        w - Slot.grainOf w ∈ FujiLookup.values fpGrainEffectSize) := by
  have hw : w = 0 ∨ w = 1 ∨ w = 2 ∨ w = 3 ∨ w = 4 ∨ w = 5 := by grind
  rcases hw with rfl | rfl | rfl | rfl | rfl | rfl <;> decide

theorem grainOf_not_mem {w : UInt32} (h : ¬ w ≤ 5) :
    ¬ (Slot.grainOf w = 0 ∨ Slot.grainOf w ∈ FujiLookup.values fpGrainEffect) := by
  have hw : w > 3 ∧ w - 2 ≠ 0 ∧ w - 2 ≠ 1 ∧ w - 2 ≠ 2 ∧ w - 2 ≠ 3 := by grind
  simp [Slot.grainOf, FujiLookup.values, fpGrainEffect, hw]

/-- **The decoder stores what a slot admits.** -/
theorem parseProp_of_admits {i : ℕ} {s : Slot} (hs : layout[i]? = some s) {p : FujiProfile}
    {w : UInt32} (hz : ∀ f ∈ s.fields, p.word f = 0) (h : s.Admits (p.word .iopCode) w) :
    parseProp p i w = (0, p.assign (s.writes w)) := by
  cases s with
  | setting f tbl =>
    have hf : p.word f = 0 := hz f (List.mem_singleton.mpr rfl)
    rcases parseProp_setting hs p w with hp | hp
    · rw [hp, copyIntoField_of_admits hf h]; rfl
    · -- WBShootCond holds the word before the table is searched
      rw [hp, copyIntoField]
      by_cases hw : w ∈ FujiLookup.values (tbl (p.word .iopCode))
      · rw [copyValueIfValid_of_mem hw]
        simp [Slot.writes, FujiProfile.set]
      · obtain rfl : w = 0 := h.resolve_right hw
        rw [copyValueIfValid_of_not_mem hw]
        simp [Slot.writes, FujiProfile.set]
  | grain =>
    obtain rfl := layout_grain hs
    obtain ⟨h1, h2⟩ := grainOf_mem h
    have hg : p.word .grainEffect = 0 := hz _ (by simp [Slot.fields])
    have hg' : (p.set .grainEffect (Slot.grainOf w)).word .grainEffectSize = 0 := by
      rw [FujiProfile.set_word_of_ne _ _ (by decide)]
      exact hz _ (by simp [Slot.fields])
    have e1 := copyIntoField_of_admits hg h1
    have e2 := copyIntoField_of_admits hg' h2
    simp only [Slot.grainOf] at e1 e2
    simp [parseProp, e1, e2, Slot.writes, Slot.grainOf]
  | reserved => rw [parseProp_reserved hs]; rfl

theorem parseProp_of_not_admits {i : ℕ} {s : Slot} (hs : layout[i]? = some s)
    {p : FujiProfile} {w : UInt32} (h : ¬ s.Admits (p.word .iopCode) w) :
    (parseProp p i w).1 = -1 := by
  cases s with
  | setting f tbl =>
    rcases parseProp_setting hs p w with hp | hp <;>
      rw [hp, copyIntoField_fst] <;> exact if_neg h
  | grain =>
    obtain rfl := layout_grain hs
    have e1 : (copyIntoField p .grainEffect (Slot.grainOf w) fpGrainEffect).1 = _ :=
      copyIntoField_fst
    rw [if_neg (grainOf_not_mem h)] at e1
    simp only [Slot.grainOf] at e1
    simp [parseProp, e1]
  | reserved => exact absurd trivial h

/-! ### The encoder's switch -/

theorem getProp_setting {i : ℕ} {f : FpField} {tbl : UInt32 → List FujiLookup}
    (hs : layout[i]? = some (.setting f tbl)) (p : FujiProfile) (v vs : UInt32) :
    getProp p i v vs = copyValueIfValid (p.word f) v (tbl (p.word .iopCode)) := by
  have hi := lt_of_layout hs
  interval_cases i <;> cases hs <;> rfl

theorem getProp_reserved {i : ℕ} (hs : layout[i]? = some .reserved) (p : FujiProfile)
    (v vs : UInt32) : getProp p i v vs = (0, 0) := by
  have hi := lt_of_layout hs
  interval_cases i <;> cases hs <;> rfl

/-- **The encoder packs what fits a slot.** -/
theorem getProp_of_fits {i : ℕ} {s : Slot} (hs : layout[i]? = some s) {p : FujiProfile}
    (h : s.Fits p) (v vs : UInt32) : getProp p i v vs = (0, s.packed p v) := by
  cases s with
  | setting f tbl =>
    rw [getProp_setting hs]
    by_cases hm : p.word f ∈ FujiLookup.values (tbl (p.word .iopCode))
    · have hu : ¬ (Slot.setting f tbl).Unwritten p := fun hu => hu.2 (hu.1 ▸ hm)
      rw [copyValueIfValid_of_mem hm, Slot.packed, if_neg hu]
    · have h0 : p.word f = 0 := h.resolve_right hm
      have hu : (Slot.setting f tbl).Unwritten p := ⟨h0, h0 ▸ hm⟩
      rw [copyValueIfValid_of_not_mem hm, if_pos h0, Slot.packed, if_pos hu]
  | grain =>
    obtain rfl := layout_grain hs
    -- the size table lists 0, so `value_size` is always written
    have hsz : p.word .grainEffectSize ∈ FujiLookup.values fpGrainEffectSize :=
      h.2.elim (fun h0 => h0 ▸ by decide) id
    by_cases hm : p.word .grainEffect ∈ FujiLookup.values fpGrainEffect
    · have hu : ¬ Slot.grain.Unwritten p := fun h0 =>
        absurd ((show p.word .grainEffect = 0 from h0) ▸ hm) (by decide)
      rw [Slot.packed_of_not_unwritten hu]
      simp [getProp, copyValueIfValid_of_mem hm, copyValueIfValid_of_mem hsz, Slot.fetch]
    · have h0 : p.word .grainEffect = 0 := h.1.resolve_right hm
      have e1 : copyValueIfValid (p.word .grainEffect) v fpGrainEffect = _ :=
        copyValueIfValid_of_not_mem hm
      rw [if_pos h0, h0] at e1
      simp [getProp, e1, copyValueIfValid_of_mem hsz, Slot.packed, h0]
  | reserved => exact getProp_reserved hs p v vs

theorem getProp_of_not_fits {i : ℕ} {s : Slot} (hs : layout[i]? = some s) {p : FujiProfile}
    (h : ¬ s.Fits p) (v vs : UInt32) : (getProp p i v vs).1 = -1 := by
  cases s with
  | setting f tbl =>
    rw [getProp_setting hs, copyValueIfValid_fst]
    exact if_neg h
  | grain =>
    obtain rfl := layout_grain hs
    simp only [getProp, copyValueIfValid_fst]
    by_cases h1 : p.word .grainEffect = 0 ∨ p.word .grainEffect ∈ FujiLookup.values fpGrainEffect
    · have h2 : ¬ (p.word .grainEffectSize = 0 ∨
          p.word .grainEffectSize ∈ FujiLookup.values fpGrainEffectSize) :=
        fun h2 => h ⟨h1, h2⟩
      simp [h1, h2]
    · simp [h1]
  | reserved => exact absurd trivial h

end D185

end Fuji
