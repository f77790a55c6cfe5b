/-
One element of a profile file beside the d185 codec (`parse_prop` in `xml.c`).

* `parseProp_frame_iff` — an element changes no member but the one of its name, except for
  three arms of the chain that store into the member of another name;
* `parseProp_agrees_iff` — when a numeric text is taken just if the table of the codec has it,
  and stored as the number of the table;
* `iopCode_agrees_iff` — when the two decoders of the IOP code agree: on eight digits of the
  codec, where `strtoul` reads the same number (`strtoul_hex`).
-/
import LibFuji.D185Decode
import LibFuji.XmlRules

namespace Fuji

namespace Xml

open D185 ByteCodec PropRule

/-! ### Two arms of the chain -/

/-- The arm of a shift of the white balance. -/
theorem parseProp_wbShift (fp : FujiProfile) {key : String} (hkey : key = "WBShiftR" ∨ key = "WBShiftB")
    (v : String) : parseProp fp key (some v) = if isWbShift (strtoulInt v 0) = true then
      (0, fp.set .wbShiftR (strtoulInt v 0)) else (-1, fp) := by
  have harm : parseProp fp key (some v) = if ¬ ((strtoulInt v 0).toInt32.toInt ≥ -10 ∧
      (strtoulInt v 0).toInt32.toInt ≤ 10) then (-1, fp)
      else (0, fp.set .wbShiftR (strtoulInt v 0)) := by
    rcases hkey with rfl | rfl <;> rfl
  rw [harm, ite_not]
  simp only [isWbShift, decide_eq_true_eq]

/-- The arm of the priority of the dynamic range. -/
theorem parseProp_wideDRange (fp : FujiProfile) (v : String) :
    parseProp fp "WideDRange" (some v) =
      if decide (strtoulInt v 0 ≤ 100) = true then
        (0, fp.set .wideDRange (strtoulInt v 0)) else (-1, fp) := by
  have harm : parseProp fp "WideDRange" (some v) = if ¬ strtoulInt v 0 ≤ 100 then (-1, fp)
      else (0, fp.set .wideDRange (strtoulInt v 0)) := rfl
  rw [harm, ite_not]
  simp only [decide_eq_true_eq]

/-! ### What an element changes -/

/-- Members that are written under the name of another. -/
def misdirected : List (String × FpField) :=
  [("WBShiftB", .wbShiftR), ("SmoothSkinEffect", .wbShootCond), ("LensModulationOpt", .wbShootCond)]

theorem writers_cases {key : String} {f : FpField} (h : key ∈ writers f) :
    f.name = key ∨ (key, f) ∈ misdirected := by
  cases f <;> first
    | exact .inl (List.mem_singleton.mp h).symm
    | exact absurd h List.not_mem_nil
    | skip
  -- the two members with several writers
  all_goals
    simp only [writers, List.mem_cons, List.not_mem_nil, or_false] at h
    rcases h with rfl | rfl | rfl <;> simp [misdirected, FpField.name]

theorem validateLookup_refused (value : Option String) (fp : FujiProfile) (f : FpField)
    (tbl : List FujiLookup) :
    (validateLookup value fp f tbl).1 = 0 ∨ (validateLookup value fp f tbl).2 = fp := by
  unfold validateLookup
  split
  · exact .inr rfl
  · split
    · exact .inl rfl
    · exact .inr rfl

theorem requireValue_refused (value : Option String) {fp : FujiProfile}
    {k : String → Int × FujiProfile} (hk : ∀ s, (k s).1 = 0 ∨ (k s).2 = fp) :
    (requireValue value fp k).1 = 0 ∨ (requireValue value fp k).2 = fp := by
  cases value with
  | none => exact .inr rfl
  | some s => exact hk s

theorem ite_refused {c : Prop} [Decidable c] {fp : FujiProfile} {r r' : Int × FujiProfile}
    (hr : r.1 = 0 ∨ r.2 = fp) (hr' : r'.1 = 0 ∨ r'.2 = fp) :
    (if c then r else r').1 = 0 ∨ (if c then r else r').2 = fp := by
  split
  · exact hr
  · exact hr'

/-- A refused element leaves the profile as it was, except that DynamicRange is stored before
it is checked. -/
theorem parseProp_refused (fp : FujiProfile) {key : String} (hkey : key ≠ "DynamicRange")
    (value : Option String) :
    (parseProp fp key value).1 = 0 ∨ (parseProp fp key value).2 = fp := by
  unfold parseProp
  split <;> with_reducible first
    | exact validateLookup_refused _ _ _ _
    | exact .inl rfl
    | exact ite_refused (.inl rfl) (validateLookup_refused _ _ _ _)
    | exact ite_refused (.inl rfl) (.inl rfl)
    | exact requireValue_refused _ fun s => ite_refused (.inr rfl) (.inl rfl)
    | exact requireValue_refused _ fun s => .inl rfl
    | exact absurd rfl hkey
    | exact .inr rfl

/-- What an element changes: at most one member, and under its own name. -/
theorem parseProp_changes (fp : FujiProfile) (key : String) (value : Option String) :
    (parseProp fp key value).2 = fp ∨
      ∃ f v, (parseProp fp key value).2 = fp.set f v ∧ (f.name = key ∨ (key, f) ∈ misdirected) := by
  have hfollows := parseProp_follows fp key value
  cases heval : (ruleOf key).eval (fp.word .iopCode) value with
  | none =>
    rw [heval] at hfollows
    by_cases hkey : key = "DynamicRange"
    · subst hkey
      cases value with
      | none => exact .inl rfl
      | some s =>
        refine .inr ⟨.dynamicRange, strtoulInt s 0, ?_, .inl rfl⟩
        exact (apply_ite Prod.snd _ _ _).trans (ite_self _)
    · refine .inl ((parseProp_refused fp hkey value).resolve_left fun hzero => ?_)
      have hrc : (parseProp fp key value).1 = -1 := hfollows
      omega
  | some ws =>
    rw [heval] at hfollows
    have hrun : parseProp fp key value = (0, fp.assign ws) := hfollows
    rcases (ruleOf_lawful key).stores heval with rfl | ⟨f, v, rfl, hkey, -⟩
    · exact .inl (by rw [hrun, FujiProfile.assign_nil])
    · exact .inr ⟨f, v, by rw [hrun]; rfl, writers_cases hkey⟩

/-- Only the member of that name changes. -/
structure Frame (fp : FujiProfile) (key : String) (fp' : FujiProfile) : Prop where
  version : fp'.profileVersion = fp.profileVersion
  words : ∀ f : FpField, f.name ≠ key → fp'.word f = fp.word f

/-- A text that is stored in the member of another name, and changes it. -/
def Misdirects (fp : FujiProfile) (key : String) (value : Option String) : Prop :=
  (key = "WBShiftB" ∧ ∃ s, value = some s ∧ isWbShift (strtoulInt s 0) = true ∧
      fp.word .wbShiftR ≠ strtoulInt s 0) ∨
    ((key = "SmoothSkinEffect" ∨ key = "LensModulationOpt") ∧
      (value = some "ON" ∧ fp.word .wbShootCond ≠ 1 ∨
        value = some "OFF" ∧ fp.word .wbShootCond ≠ 0))

theorem frame_refl (fp : FujiProfile) (key : String) : Frame fp key fp :=
  ⟨rfl, fun _ _ => rfl⟩

/-- A store into a member of another name is a change of its value. -/
theorem frame_set_iff {fp : FujiProfile} {key : String} {f : FpField} {v : UInt32}
    (hf : f.name ≠ key) : Frame fp key (fp.set f v) ↔ fp.word f = v := by
  constructor
  · intro hframe
    have hword := hframe.words f hf
    rw [FujiProfile.set_word_self] at hword
    exact hword.symm
  · rintro rfl
    rw [FujiProfile.set_word_eq]
    exact frame_refl fp key

/-- The two texts of a switch. -/
theorem find_onOff (s : String) : fpOnOff.find? (fun row => s = row.key) =
    if s = "ON" then some ⟨"ON", 1⟩ else if s = "OFF" then some ⟨"OFF", 0⟩ else none := by
  by_cases hon : s = "ON"
  · simp [fpOnOff, hon]
  · by_cases hoff : s = "OFF"
    · simp [fpOnOff, hoff]
    · simp [fpOnOff, hon, hoff]

/-- A switch that is stored in WBShootCond. -/
theorem frame_onOff_iff {fp : FujiProfile} {key : String} (hkey : key ≠ "WBShootCond") (s : String) :
    Frame fp key (validateLookup (some s) fp .wbShootCond fpOnOff).2 ↔
      ¬ (s = "ON" ∧ fp.word .wbShootCond ≠ 1 ∨ s = "OFF" ∧ fp.word .wbShootCond ≠ 0) := by
  have hname : FpField.wbShootCond.name ≠ key := hkey.symm
  simp only [validateLookup, find_onOff]
  by_cases hon : s = "ON"
  · simp only [if_pos hon, frame_set_iff hname]
    have hoff : s ≠ "OFF" := by simp [hon]
    tauto
  · by_cases hoff : s = "OFF"
    · simp only [if_neg hon, if_pos hoff, frame_set_iff hname]
      tauto
    · simp only [if_neg hon, if_neg hoff]
      exact iff_of_true (frame_refl fp key) (by tauto)

/-- The two switches whose arms store into WBShootCond. -/
theorem frame_switch_iff (fp : FujiProfile) {key : String}
    (hkey : key = "SmoothSkinEffect" ∨ key = "LensModulationOpt") (s : String) :
    Frame fp key (parseProp fp key (some s)).2 ↔ ¬ Misdirects fp key (some s) := by
  have harm : parseProp fp key (some s) = validateLookup (some s) fp .wbShootCond fpOnOff := by
    rcases hkey with rfl | rfl <;> rfl
  have hother : key ≠ "WBShootCond" := by rcases hkey with rfl | rfl <;> decide
  rw [harm, frame_onOff_iff hother]
  rcases hkey with rfl | rfl <;> simp [Misdirects]

/-- A shift of the white balance, under a name that is not that of the red one. -/
theorem frame_wbShift_iff (fp : FujiProfile) (s : String) :
    Frame fp "WBShiftB" (parseProp fp "WBShiftB" (some s)).2 ↔
      ¬ (isWbShift (strtoulInt s 0) = true ∧ fp.word .wbShiftR ≠ strtoulInt s 0) := by
  have hname : FpField.wbShiftR.name ≠ "WBShiftB" := by decide
  rw [parseProp_wbShift fp (.inr rfl)]
  by_cases hshift : isWbShift (strtoulInt s 0) = true
  · rw [if_pos hshift, frame_set_iff hname]
    exact ⟨fun heq hne => hne.2 heq, fun h => not_not.mp fun hne => h ⟨hshift, hne⟩⟩
  · rw [if_neg hshift]
    exact iff_of_true (frame_refl fp _) fun h => hshift h.1

/-- **What an element changes.**  It is at most the member of its name, unless a text for
WBShiftB, SmoothSkinEffect or LensModulationOpt is stored elsewhere. -/
theorem parseProp_frame_iff (fp : FujiProfile) (key : String) (value : Option String) :
    Frame fp key (parseProp fp key value).2 ↔ ¬ Misdirects fp key value := by
  by_cases hb : key = "WBShiftB"
  · subst hb
    cases value with
    | none => exact iff_of_true (frame_refl fp _) (by simp [Misdirects])
    | some s =>
      rw [frame_wbShift_iff]
      simp [Misdirects]
  by_cases hskin : key = "SmoothSkinEffect"
  · subst hskin
    cases value with
    | none =>
      refine iff_of_true ⟨rfl, fun f hf => ?_⟩ (by simp [Misdirects])
      refine FujiProfile.set_word_of_ne fp 1 ?_
      rintro rfl
      exact hf rfl
    | some s => exact frame_switch_iff fp (.inl rfl) s
  by_cases hlens : key = "LensModulationOpt"
  · subst hlens
    cases value with
    | none => exact iff_of_true (frame_refl fp _) (by simp [Misdirects])
    | some s => exact frame_switch_iff fp (.inr rfl) s
  -- the other arms store into the member of their name
  · refine iff_of_true ?_ (by simp [Misdirects, hb, hskin, hlens])
    rcases parseProp_changes fp key value with hsame | ⟨f, v, hset, hkey⟩
    · rw [hsame]
      exact frame_refl fp key
    · have hname : f.name = key := by
        refine hkey.resolve_right fun hmem => ?_
        simp only [misdirected, List.mem_cons, Prod.mk.injEq, List.not_mem_nil, or_false] at hmem
        tauto
      rw [hset]
      refine ⟨rfl, fun g hg => FujiProfile.set_word_of_ne fp v ?_⟩
      rintro rfl
      exact hg hname

/-- The blue shift goes into the red one. -/
theorem parseProp_not_framed : ¬ ∀ (fp : FujiProfile) (key : String) (value : Option String),
    Frame fp key (parseProp fp key value).2 := by
  intro h
  have hword := (h .zero "WBShiftB" (some "5")).words .wbShiftR (by decide)
  revert hword
  decide

/-! ### Numeric settings -/

/-- The settings whose text is a number. -/
inductive NumericSetting
  | wbShiftR | wbShiftB | blackImageTone | monochromaticColorRG | wideDRange | wbColorTemp
  deriving DecidableEq, Repr

namespace NumericSetting

def field : NumericSetting → FpField
  | wbShiftR => .wbShiftR
  | wbShiftB => .wbShiftB
  | blackImageTone => .blackImageTone
  | monochromaticColorRG => .monochromaticColorRG
  | wideDRange => .wideDRange
  | wbColorTemp => .wbColorTemp

/-- The table by which the d185 codec checks the setting. -/
def table : NumericSetting → List FujiLookup
  | wbShiftR => fpRangeWbShift
  | wbShiftB => fpRangeWbShift
  | blackImageTone => fpRangeMonoShiftWarmCold
  | monochromaticColorRG => fpRangeMonoGreenMagenta
  | wideDRange => fpDrangePriority
  | wbColorTemp => fpColorTemp

end NumericSetting

/-- The reader takes just the keys of a table, and stores the number of the key. -/
def ByTable (r : Int × FujiProfile) (f : FpField) (tbl : List FujiLookup) (v : String) : Prop :=
  (r.1 = 0 ↔ ∃ row ∈ tbl, row.key = v) ∧ ∀ row ∈ tbl, row.key = v → r.2.word f = row.value

/-- The texts of colour temperatures are numbers with a unit, the others those of the table. -/
def Agrees (fp : FujiProfile) (n : NumericSetting) (v : String) : Prop :=
  let r := parseProp fp n.field.name (some v)
  match n with
  | .wbColorTemp =>
    r.1 = 0 → ∃ k : ℕ, v = toString k ++ "K" ∧ (r.2.word .wbColorTemp).toNat = k
  | n => ByTable r n.field n.table v

/-- The texts on which the reader does as the codec. -/
def InUnit (fp : FujiProfile) (v : String) : NumericSetting → Prop
  | .wbShiftR => v = "0" ∨ ¬ isWbShift (strtoulInt v 0) = true
  -- the number goes elsewhere, so the member must have the right one already
  | .wbShiftB => (∃ row ∈ fpRangeWbShift, row.key = v ∧ fp.word .wbShiftB = row.value) ∨
      ¬ isWbShift (strtoulInt v 0) = true
  | .blackImageTone => v = "0"
  | .monochromaticColorRG => v = "0"
  -- every text without digits is 0 for the reader
  | .wideDRange => v = "OFF" ∨ v = "0" ∨ 100 < strtoulInt v 0
  | .wbColorTemp => v ≠ "10000K"

/-- A number that passes a test, as all keys of the table do, is stored in `g`. -/
theorem byTable_number_iff {fp : FujiProfile} {f g : FpField} {tbl : List FujiLookup} {v : String}
    (ok : UInt32 → Bool) (hkeys : ∀ row ∈ tbl, ok (strtoulInt row.key 0) = true)
    (hfun : ∀ a ∈ tbl, ∀ b ∈ tbl, a.key = b.key → a.value = b.value) :
    ByTable (if ok (strtoulInt v 0) = true then (0, fp.set g (strtoulInt v 0)) else (-1, fp)) f tbl v ↔
      (∃ row ∈ tbl, row.key = v ∧ (fp.set g (strtoulInt v 0)).word f = row.value) ∨
        ¬ ok (strtoulInt v 0) = true := by
  by_cases hok : ok (strtoulInt v 0) = true
  · rw [if_pos hok]
    constructor
    · rintro ⟨hacc, hval⟩
      obtain ⟨row, hrow, hkey⟩ := hacc.mp rfl
      exact .inl ⟨row, hrow, hkey, hval row hrow hkey⟩
    · rintro (⟨row, hrow, hkey, hw⟩ | h)
      · refine ⟨iff_of_true rfl ⟨row, hrow, hkey⟩, fun row' hrow' hkey' => hw.trans ?_⟩
        exact hfun row hrow row' hrow' (hkey.trans hkey'.symm)
      · exact absurd hok h
  -- what is refused is no key
  · have hnokey : ∀ row ∈ tbl, row.key ≠ v := by
      rintro row hrow rfl
      exact hok (hkeys row hrow)
    rw [if_neg hok]
    have hrc : ¬ (-1 : Int) = 0 := by omega
    refine iff_of_true ⟨iff_of_false hrc ?_, fun row hrow hkey => ?_⟩ (.inr hok)
    · rintro ⟨row, hrow, hkey⟩
      exact hnokey row hrow hkey
    · exact absurd hkey (hnokey row hrow)

/-- The reader stores the number as it is spelled, the codec ten times that: they agree on 0. -/
theorem spelled_iff {tbl : List FujiLookup} {v : String}
    (h : ∀ row ∈ tbl, strtoulInt row.key 0 = row.value ↔ row.key = "0")
    (hzero : ∃ row ∈ tbl, row.key = "0") :
    (∃ row ∈ tbl, row.key = v ∧ strtoulInt v 0 = row.value) ↔ v = "0" := by
  constructor
  · rintro ⟨row, hrow, rfl, hval⟩
    exact (h row hrow).mp hval
  · rintro rfl
    obtain ⟨row, hrow, hkey⟩ := hzero
    refine ⟨row, hrow, hkey, ?_⟩
    rw [← hkey]
    exact (h row hrow).mpr hkey

/-- The rows of the colour temperatures, but for the last. -/
theorem fpColorTemp_spelled {row : FujiLookup} (h : row ∈ fpColorTemp) (hlast : row.key ≠ "10000K") :
    ∃ k : ℕ, row.key = toString k ++ "K" ∧ row.value.toNat = k := by
  simp only [fpColorTemp, List.mem_append, List.mem_cons, List.not_mem_nil, or_false,
    List.mem_map, List.mem_range] at h
  rcases h with ((rfl | rfl) | ⟨i, hi, rfl⟩) | rfl
  · exact ⟨0, rfl, rfl⟩
  · exact ⟨2200, rfl, rfl⟩
  · refine ⟨2500 + 10 * i, rfl, ?_⟩
    show (UInt32.ofNat (2500 + 10 * i)).toNat = 2500 + 10 * i
    rw [UInt32.toNat_ofNat']
    omega
  · exact absurd rfl hlast

/-- A colour temperature is stored as it is spelled, but for the last of the table. -/
theorem colorTemp_iff (fp : FujiProfile) (v : String) : Agrees fp .wbColorTemp v ↔ v ≠ "10000K" := by
  have hrun : parseProp fp "WBColorTemp" (some v)
      = validateLookup (some v) fp .wbColorTemp fpColorTemp := rfl
  simp only [Agrees, NumericSetting.field, FpField.name, hrun, validateLookup]
  constructor
  · rintro h rfl
    have hfind : fpColorTemp.find? (fun row => "10000K" = row.key) = some ⟨"10000K", 1000⟩ := by
      decide +kernel
    rw [hfind] at h
    obtain ⟨k, hkey, hval⟩ := h rfl
    have hk : k = 1000 := by rw [← hval, FujiProfile.set_word_self]; rfl
    subst hk
    exact absurd hkey (by decide)
  · intro hv
    cases hfind : fpColorTemp.find? (fun row => v = row.key) with
    | none =>
      intro h
      have hrc : (-1 : Int) = 0 := h
      omega
    | some row =>
      intro _
      have hkey : v = row.key := by simpa using List.find?_some hfind
      obtain ⟨k, hspell, hval⟩ := fpColorTemp_spelled (List.mem_of_find?_eq_some hfind) (hkey ▸ hv)
      exact ⟨k, hkey ▸ hspell, by rw [FujiProfile.set_word_self, hval]⟩

/-- The keys of the priorities that the reader takes for their number. -/
theorem priority_iff (v : String) :
    (∃ row ∈ fpDrangePriority, row.key = v ∧ strtoulInt v 0 = row.value) ↔ v = "OFF" ∨ v = "0" := by
  have hall : ∀ row ∈ fpDrangePriority,
      strtoulInt row.key 0 = row.value ↔ row.key = "OFF" ∨ row.key = "0" := by decide +kernel
  constructor
  · rintro ⟨row, hrow, rfl, hval⟩
    exact (hall row hrow).mp hval
  · intro hv
    have hrow : ∃ row ∈ fpDrangePriority, row.key = v := by
      rcases hv with rfl | rfl <;> decide +kernel
    obtain ⟨row, hrow, rfl⟩ := hrow
    exact ⟨row, hrow, rfl, (hall row hrow).mpr hv⟩

/-- **When a numeric text means the same to both readers.** -/
theorem parseProp_agrees_iff (fp : FujiProfile) (n : NumericSetting) (v : String) :
    Agrees fp n v ↔ InUnit fp v n := by
  cases n with
  | wbShiftR =>
    show ByTable (parseProp fp "WBShiftR" (some v)) .wbShiftR fpRangeWbShift v ↔ _
    rw [parseProp_wbShift fp (.inl rfl), byTable_number_iff isWbShift (by decide +kernel)
      (by decide +kernel)]
    simp only [FujiProfile.set_word_self]
    rw [spelled_iff (by decide +kernel) (by decide +kernel), InUnit]
  | wbShiftB =>
    show ByTable (parseProp fp "WBShiftB" (some v)) .wbShiftB fpRangeWbShift v ↔ _
    rw [parseProp_wbShift fp (.inr rfl), byTable_number_iff isWbShift (by decide +kernel)
      (by decide +kernel), FujiProfile.set_word_of_ne _ _ (by decide), InUnit]
  | blackImageTone =>
    show ByTable (if true = true then (0, fp.set .blackImageTone (strtoulInt v 0)) else (-1, fp))
      .blackImageTone fpRangeMonoShiftWarmCold v ↔ _
    rw [byTable_number_iff (fun _ => true) (fun _ _ => rfl) (by decide +kernel)]
    simp only [FujiProfile.set_word_self]
    rw [spelled_iff (by decide +kernel) (by decide +kernel), InUnit]
    simp
  | monochromaticColorRG =>
    show ByTable (if true = true then (0, fp.set .monochromaticColorRG (strtoulInt v 0)) else (-1, fp))
      .monochromaticColorRG fpRangeMonoGreenMagenta v ↔ _
    rw [byTable_number_iff (fun _ => true) (fun _ _ => rfl) (by decide +kernel)]
    simp only [FujiProfile.set_word_self]
    rw [spelled_iff (by decide +kernel) (by decide +kernel), InUnit]
    simp
  | wideDRange =>
    show ByTable (parseProp fp "WideDRange" (some v)) .wideDRange fpDrangePriority v ↔ _
    rw [parseProp_wideDRange, byTable_number_iff (fun w => decide (w ≤ 100)) (by decide +kernel)
      (by decide +kernel)]
    simp only [FujiProfile.set_word_self]
    rw [priority_iff, InUnit, decide_eq_true_eq, or_assoc, UInt32.not_le]
  | wbColorTemp => exact colorTemp_iff fp v

/-- The reader stores a shift of 5 as 5, where the codec has 50. -/
theorem parseProp_not_agrees : ¬ ∀ (fp : FujiProfile) (n : NumericSetting) (v : String),
    Agrees fp n v := by
  intro h
  have hword := (h .zero .wbShiftR "5").2 ⟨"5", 50⟩ (by decide) rfl
  revert hword
  decide

/-! ### The IOP code -/

theorem isSome_hexVal {c : ℕ} (h : (hexVal c).isSome) : 0x30 ≤ c ∧ c ≤ 0x39 ∨ 0x41 ≤ c ∧ c ≤ 0x46 := by
  rw [hexVal] at h
  split_ifs at h with hdigit hletter
  · exact .inl hdigit
  · exact .inr hletter
  · cases h

/-- `strtoul` gives a digit of the codec the same value. -/
theorem digitVal_of_hex {c : Char} (h : (hexVal c.toNat).isSome) :
    digitVal c = hexVal c.toNat ∧ isDigitOf 16 c = true := by
  have hle (a b : Char) : a ≤ b ↔ a.toNat ≤ b.toNat := Iff.rfl
  have hcodes : '0'.toNat = 0x30 ∧ '9'.toNat = 0x39 ∧ 'A'.toNat = 0x41 ∧ 'Z'.toNat = 0x5a := by
    decide
  obtain ⟨h0, h9, hA, hZ⟩ := hcodes
  have hval : digitVal c = hexVal c.toNat := by
    simp only [digitVal, hexVal, hle, h0, h9, hA, hZ]
    rcases isSome_hexVal h with hdigit | hletter
    · rw [if_pos hdigit, if_pos hdigit]
    · rw [if_neg (by omega), if_pos (by omega), if_neg (by omega), if_pos hletter]
  refine ⟨hval, ?_⟩
  rw [isDigitOf, hval]
  rcases isSome_hexVal h with hdigit | hletter
  · simp only [hexVal, if_pos hdigit, Option.any_some, decide_eq_true_eq]
    omega
  · rw [hexVal, if_neg (by omega), if_pos hletter]
    simp only [Option.any_some, decide_eq_true_eq]
    omega

/-- Neither a sign nor a prefix `0x` starts with a digit of the codec. -/
theorem takeSign_hex {cs : List Char} (h : ∀ c ∈ cs, (hexVal c.toNat).isSome) :
    takeSign cs = (false, cs) := by
  cases cs with
  | nil => rfl
  | cons c cs =>
    have hc := isSome_hexVal (h c (List.mem_cons_self ..))
    have hminus : c ≠ '-' := by rintro rfl; revert hc; decide
    have hplus : c ≠ '+' := by rintro rfl; revert hc; decide
    rw [takeSign, if_neg hminus, if_neg hplus]

theorem takeBase_hex {cs : List Char} (h : ∀ c ∈ cs, (hexVal c.toNat).isSome) :
    takeBase 16 cs = (16, cs) := by
  match cs with
  | [] => rfl
  | [z] => rfl
  | [z, x] => rfl
  | z :: x :: d :: cs =>
    have hx := isSome_hexVal (h x (by simp))
    have hlower : x ≠ 'x' := by rintro rfl; revert hx; decide
    have hupper : x ≠ 'X' := by rintro rfl; revert hx; decide
    rw [takeBase, if_neg (by tauto), if_pos (by omega)]

/-- **Where the codec sees digits only, both decoders read the same number.** -/
theorem strtoul_hex {s : String} (h : ∀ c ∈ s.toList, (hexVal c.toNat).isSome)
    (hlen : s.length ≤ 8) : strtoul s 16 = spell (s.toList.map Char.toNat) := by
  have hspace : s.toList.dropWhile isSpace = s.toList := by
    cases hcs : s.toList with
    | nil => rfl
    | cons c cs =>
      have hc := isSome_hexVal (h c (hcs ▸ List.mem_cons_self ..))
      have hno : ¬ isSpace c = true := by
        simp only [isSpace, decide_eq_true_eq]
        omega
      rw [List.dropWhile_cons_of_neg hno]
  have hdigits : s.toList.takeWhile (isDigitOf 16) = s.toList :=
    List.takeWhile_eq_self_iff.mpr fun c hc => (digitVal_of_hex (h c hc)).2
  have hfold : s.toList.foldl (fun acc c => acc * 16 + (digitVal c).getD 0) 0
      = spell (s.toList.map Char.toNat) := by
    rw [spell, ← foldl_digits, List.map_map, List.foldl_map]
    refine List.foldl_ext _ _ _ fun acc c hc => ?_
    rw [(digitVal_of_hex (h c hc)).1]
    rfl
  have hlt : spell (s.toList.map Char.toNat) < 2 ^ 32 := spell_lt (by rwa [List.length_map, String.length_toList])
  rw [strtoul, hspace, takeSign_hex h]
  simp only [takeBase_hex h, hdigits, hfold]
  rw [if_neg (by omega)]
  rfl

/-- Everything in a blob but its IOP string is valid. -/
structure RestValid (bin : List UInt8) : Prop where
  long : 0x200 ≤ bin.length
  count : nPropsOf bin ≤ 29
  words : ∀ (i : ℕ) (slot : Slot), i < nPropsOf bin → layout[i]? = some slot →
    slot.Admits (iopCodeOf bin) (wordAt bin i)

/-- The two decoders agree on the text of an element and a blob. -/
structure IopAgrees (fp fp' : FujiProfile) (s : String) (bin : List UInt8) : Prop where
  accepts : (parseProp fp "IOPCode" (some s)).1 = 0 ↔ ∃ q, fpParseD185 bin fp' = some (0, q)
  code : ∀ q, fpParseD185 bin fp' = some (0, q) →
    (parseProp fp "IOPCode" (some s)).2.word .iopCode = q.word .iopCode
  tones : ∀ q, fpParseD185 bin fp' = some (0, q) →
    fpGetHighlightTone (parseProp fp "IOPCode" (some s)).2 = fpGetHighlightTone q ∧
      fpGetShadowTone (parseProp fp "IOPCode" (some s)).2 = fpGetShadowTone q

/-- **When the two decoders of the IOP code agree**; a character of the text is a byte, below 256,
as everywhere in a C string. -/
theorem iopCode_agrees_iff (fp fp' : FujiProfile) {s : String} (hs : s.length = 8)
    {bin : List UInt8} (hstring : iopChars bin = s.toList.map Char.toNat) (hrest : RestValid bin) :
    IopAgrees fp fp' s bin ↔ ∀ c ∈ s.toList, (hexVal c.toNat).isSome := by
  have hrun : parseProp fp "IOPCode" (some s) = (0, fp.set .iopCode (strtoulInt s 16)) := by
    have harm : parseProp fp "IOPCode" (some s)
        = if s.length ≠ 8 then (-1, fp) else (0, fp.set .iopCode (strtoulInt s 16)) := rfl
    rw [harm, if_neg (not_not.mpr hs)]
  have hlen : (iopChars bin).length = 8 := by rw [hstring, List.length_map, String.length_toList, hs]
  have hhex : (∀ c ∈ iopChars bin, (hexVal c).isSome) ↔ ∀ c ∈ s.toList, (hexVal c.toNat).isSome := by
    rw [hstring]
    simp only [List.mem_map, forall_exists_index, and_imp, forall_apply_eq_imp_iff₂]
  constructor
  · intro hagree
    obtain ⟨q, hq⟩ := hagree.accepts.mp (by rw [hrun])
    exact hhex.mp (fpParseD185_eq_iff.mp hq).1.hex
  · intro hdigits
    have hformat : Format bin 9 :=
      ⟨hrest.long, hrest.count, by omega, hhex.mpr hdigits, hrest.words⟩
    have hcode : ∀ q, fpParseD185 bin fp' = some (0, q) →
        (parseProp fp "IOPCode" (some s)).2.word .iopCode = q.word .iopCode := by
      intro q hq
      obtain ⟨-, rfl⟩ := fpParseD185_eq_iff.mp hq
      rw [hrun, FujiProfile.set_word_self, decoded_iopCode hrest.count, strtoulInt,
        strtoul_hex hdigits hs.le, iopCodeOf, hstring]
    refine ⟨iff_of_true (by rw [hrun]) ⟨_, fpParseD185_of_format hformat fp'⟩, hcode, ?_⟩
    intro q hq
    simp only [fpGetHighlightTone, fpGetShadowTone, hcode q hq, and_self]

/-- A blob of 0x200 bytes with no properties and an IOP string of eight characters. -/
def iopBlob (s : String) : List UInt8 :=
  leBytes 2 0 ++ leBytes 1 8 ++ (s.toList.map Char.toNat).flatMap (leBytes 2) ++ List.replicate 493 0

theorem iopCode_agrees_xprocessor5 :
    IopAgrees .zero .zero "00179502" (iopBlob "00179502") := by
  have hcount : nPropsOf (iopBlob "00179502") = 0 := by decide +kernel
  have hdigits : "00179502".toList.all fun c => (hexVal c.toNat).isSome := by decide
  refine (iopCode_agrees_iff .zero .zero rfl (by decide +kernel) ⟨?_, ?_, ?_⟩).mpr
    (List.all_eq_true.mp hdigits)
  · decide +kernel
  · omega
  · intro i slot hi
    omega

/-- The XML reader takes eight letters that are no digits, and stores 0. -/
theorem iopCode_not_agrees : ¬ ∀ (fp fp' : FujiProfile) (s : String) (bin : List UInt8),
    s.length = 8 → iopChars bin = s.toList.map Char.toNat → RestValid bin →
      IopAgrees fp fp' s bin := by
  intro h
  have hcount : nPropsOf (iopBlob "zzzzzzzz") = 0 := by decide +kernel
  have hrest : RestValid (iopBlob "zzzzzzzz") :=
    ⟨by decide +kernel, by omega, fun i slot hi => by omega⟩
  have hagree := h .zero .zero "zzzzzzzz" (iopBlob "zzzzzzzz") rfl (by decide +kernel) hrest
  have hxml : (parseProp .zero "IOPCode" (some "zzzzzzzz")).1 = 0 := by decide +kernel
  obtain ⟨q, hq⟩ := hagree.accepts.mp hxml
  have hrc : (fpParseD185 (iopBlob "zzzzzzzz") .zero).map Prod.fst = some (-1) := by decide +kernel
  rw [hq] at hrc
  exact absurd (Option.some.inj hrc) (by show ¬ (0 : Int) = -1; omega)

end Xml

end Fuji
