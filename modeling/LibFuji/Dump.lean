/-
Printing a profile (`fp_dump_struct` in `xml.c`).

`fpDumpStruct` is the row of calls of `dump_property`, with what they print.  Its return code is
0 just if every table lists the member (`fpDumpStruct_eq_zero_iff`), and for a profile out of a
blob just if ten words of the blob are there and not 0 (`fpDumpStruct_decoded_iff`).
-/
import LibFuji.D185Decode

namespace Fuji

/-! ### Printing -/

/-- `  <label>text</label>` and the end of the line. -/
def dumpLine (label text : String) : String :=
  "  <" ++ label ++ ">" ++ text ++ "</" ++ label ++ ">\n"

/-- `%04X`. -/
def hex4 (v : UInt32) : String :=
  String.ofList (List.leftpad 4 '0' ((Nat.toDigits 16 v.toNat).map Char.toUpper))

/-- `dump_property`: the return code, and what is printed.  A NULL table prints `%d`. -/
def dumpProperty (label : String) (value : UInt32) (tbl : Option (List FujiLookup)) :
    Int × String :=
  match tbl with
  | none => (0, dumpLine label (toString value.toInt32.toInt))
  | some tbl =>
    match tbl.find? (fun row => row.value = value) with
    | some row => (0, dumpLine label row.key)
    | none => (-1, "")

/-- The members `fp_dump_struct` prints, with their tables, in its order. -/
def dumpRows (fp : FujiProfile) : List (FpField × Option (List FujiLookup)) :=
  [(.structVer, some fpStructVer), (.iopCode, none), (.tetherRAWConditonCode, none),
    (.editable, some fpBool), (.shootingCondition, none), (.fileType, some fpFileType),
    (.imageSize, some fpImageSize), (.rotationAngle, none),
    (.imageQuality, some fpImageQuality), (.exposureBias, some fpExposureBias),
    (.dynamicRange, some fpDrange), (.wideDRange, some fpDrangePriority),
    (.filmSimulation, some fpFilmSim), (.blackImageTone, some fpRangeMonoShiftWarmCold),
    (.monochromaticColorRG, some fpRangeMonoGreenMagenta),
    (.grainEffect, some fpGrainEffect), (.grainEffectSize, some fpGrainEffectSize),
    (.chromeEffect, some fpChromeEffect), (.colorChromeBlue, some fpColorChromeBlue),
    (.smoothSkinEffect, some fpOnOff), (.wbShootCond, some fpWhiteBalanceShootCond),
    (.whiteBalance, some fpWhiteBalanceMode), (.wbShiftR, some fpRangeWbShift),
    (.wbShiftB, some fpRangeWbShift), (.wbColorTemp, some fpColorTemp),
    (.highlightTone, some (fpGetHighlightTone fp)), (.shadowTone, some (fpGetShadowTone fp)),
    (.color, some fpRange), (.sharpness, some fpRange),
    (.noisReduction, some fpNoiseReduction), (.clarity, some fpClarity),
    (.lensModulationOpt, some fpLensModulation), (.colorSpace, some fpColorSpace),
    (.hdr, some fpHdr), (.digitalTeleConv, some fpOnOff), (.portraitEnhancer, some fpOnOff)]

/-- `fp_dump_struct`; the code is the disjunction of those of the calls, which are 0 or -1. -/
def fpDumpStruct (fp : FujiProfile) : Int × String :=
  (dumpRows fp).foldl (fun acc row =>
    let r := dumpProperty row.1.name (fp.word row.1) row.2
    (if acc.1 = 0 then r.1 else acc.1, acc.2 ++ r.2))
    (0, dumpLine "IOPCode" (hex4 (fp.word .iopCode)))

/-! ### What is printed without an error -/

/-- A table lists the number, where there is one. -/
def Printable (value : UInt32) : Option (List FujiLookup) → Prop
  | none => True
  | some tbl => value ∈ FujiLookup.values tbl

theorem dumpProperty_eq_zero_iff (label : String) (value : UInt32)
    (tbl : Option (List FujiLookup)) :
    (dumpProperty label value tbl).1 = 0 ↔ Printable value tbl := by
  cases tbl with
  | none => exact iff_of_true rfl trivial
  | some tbl =>
    simp only [dumpProperty, Printable, FujiLookup.values, List.mem_map]
    cases hfind : tbl.find? (fun row => row.value = value) with
    | none =>
      refine iff_of_false (fun h : (-1 : Int) = 0 => by omega) ?_
      rintro ⟨row, hrow, hval⟩
      simpa [hval] using List.find?_eq_none.mp hfind row hrow
    | some row =>
      refine iff_of_true rfl ⟨row, List.mem_of_find?_eq_some hfind, ?_⟩
      simpa using List.find?_some hfind

/-- Codes that are gathered along a list. -/
theorem foldl_code_eq_zero_iff {α : Type*} (run : α → Int × String) (rows : List α)
    (acc : Int × String) :
    (rows.foldl (fun acc row =>
        (if acc.1 = 0 then (run row).1 else acc.1, acc.2 ++ (run row).2)) acc).1 = 0 ↔
      acc.1 = 0 ∧ ∀ row ∈ rows, (run row).1 = 0 := by
  induction rows generalizing acc with
  | nil => simp
  | cons row rows ih =>
    rw [List.foldl_cons, ih, List.forall_mem_cons]
    by_cases hacc : acc.1 = 0
    · simp [hacc]
    · simp [hacc]

theorem fpDumpStruct_eq_zero_iff (fp : FujiProfile) :
    (fpDumpStruct fp).1 = 0 ↔ ∀ row ∈ dumpRows fp, Printable (fp.word row.1) row.2 := by
  refine (foldl_code_eq_zero_iff (fun row : FpField × Option (List FujiLookup) =>
    dumpProperty row.1.name (fp.word row.1) row.2) _ _).trans ?_
  simp only [dumpProperty_eq_zero_iff, true_and]

/-! ### Profiles out of a blob -/

open ByteCodec

namespace D185

/-- Property `i` of a blob, 0 past the last. -/
def slotWord (bin : List UInt8) (i : ℕ) : UInt32 := if i < nPropsOf bin then wordAt bin i else 0

/-- The properties that are printed by a table without 0. -/
def zeroless : List ℕ := [1, 2, 3, 5, 7, 8, 9, 10, 20, 21]

/-- The property that a member needs to be other than 0. -/
def needs : FpField → Option ℕ
  | .fileType => some 1
  | .imageSize => some 2
  | .imageQuality => some 3
  | .dynamicRange => some 5
  | .filmSimulation => some 7
  | .grainEffect => some 8
  | .chromeEffect => some 9
  | .wbShootCond => some 10
  | .lensModulationOpt => some 20
  | .colorSpace => some 21
  | _ => none

section Decoded

variable {bin : List UInt8}

theorem slotWord_ne_zero_iff {i : ℕ} :
    slotWord bin i ≠ 0 ↔ i < nPropsOf bin ∧ wordAt bin i ≠ 0 := by
  rw [slotWord]
  split
  · simp_all
  · simp_all

theorem admits_slotWord (h : Format bin 9) {i : ℕ} {s : Slot} (hs : layout[i]? = some s) :
    s.Admits (iopCodeOf bin) (slotWord bin i) := by
  rw [slotWord]
  split
  · exact h.words i s ‹_› hs
  · cases s with
    | setting f tbl => exact .inl rfl
    | grain => show (0 : UInt32) ≤ 5; decide
    | reserved => trivial

/-- The member of a setting is printable, unless the table needs its word to be other than 0. -/
theorem printable_setting_iff (h : Format bin 9) {f : FpField} {tbl : UInt32 → List FujiLookup}
    (hs : layout[slotIndex f]? = some (.setting f tbl)) :
    Printable ((decoded bin).word f) (some (tbl (iopCodeOf bin))) ↔
      0 ∈ FujiLookup.values (tbl (iopCodeOf bin)) ∨ slotWord bin (slotIndex f) ≠ 0 := by
  have hword : (decoded bin).word f = slotWord bin (slotIndex f) :=
    decoded_word hs (List.mem_singleton.mpr rfl)
  have hadm : slotWord bin (slotIndex f) = 0 ∨ _ := admits_slotWord h hs
  rw [hword, Printable]
  constructor
  · intro hmem
    by_cases hzero : slotWord bin (slotIndex f) = 0
    · exact .inl (hzero ▸ hmem)
    · exact .inr hzero
  · rintro (hzero | hne)
    · rcases hadm with h0 | hmem
      · rwa [h0]
      · exact hmem
    · exact hadm.resolve_left hne

/-- The parts of the grain word. -/
theorem printable_grain_iff (h : Format bin 9) :
    (Printable ((decoded bin).word .grainEffect) (some fpGrainEffect) ↔ slotWord bin 8 ≠ 0) ∧
      Printable ((decoded bin).word .grainEffectSize) (some fpGrainEffectSize) := by
  have hs : layout[8]? = some .grain := rfl
  have hadm : slotWord bin 8 ≤ 5 := admits_slotWord h hs
  have heffect : (decoded bin).word .grainEffect = Slot.grainOf (slotWord bin 8) :=
    decoded_word hs (by simp [Slot.writes, slotWord])
  have hsize : (decoded bin).word .grainEffectSize
      = slotWord bin 8 - Slot.grainOf (slotWord bin 8) :=
    decoded_word hs (by simp [Slot.writes, slotWord])
  rw [heffect, hsize]
  generalize slotWord bin 8 = w at hadm
  have hw : w = 0 ∨ w = 1 ∨ w = 2 ∨ w = 3 ∨ w = 4 ∨ w = 5 := by grind
  simp only [Printable]
  rcases hw with rfl | rfl | rfl | rfl | rfl | rfl <;> decide

/-- What a row of the dump needs of the blob. -/
def RowNeeds (bin : List UInt8) (row : FpField × Option (List FujiLookup)) : Prop :=
  Printable ((decoded bin).word row.1) row.2 ↔ ∀ i, needs row.1 = some i → slotWord bin i ≠ 0

theorem rowNeeds_none {f : FpField} {tbl : Option (List FujiLookup)}
    (hp : Printable ((decoded bin).word f) tbl) (hn : needs f = none) : RowNeeds bin (f, tbl) := by
  refine iff_of_true hp fun i hi => ?_
  rw [hn] at hi
  cases hi

theorem rowNeeds_some {f : FpField} {tbl : Option (List FujiLookup)} {i : ℕ}
    (hp : Printable ((decoded bin).word f) tbl ↔ slotWord bin i ≠ 0) (hn : needs f = some i) :
    RowNeeds bin (f, tbl) := by
  refine hp.trans ⟨fun hne j hj => ?_, fun hall => hall i hn⟩
  rw [hn] at hj
  exact Option.some.inj hj ▸ hne

/-- A member of no slot is the version, or 0. -/
theorem rowNeeds_const (h : Format bin 9) {f : FpField} {tbl : List FujiLookup}
    (hf : slotIndex f = 29 ∧ f ≠ .structVer ∧ f ≠ .iopCode) (h0 : 0 ∈ FujiLookup.values tbl)
    (hn : needs f = none) : RowNeeds bin (f, some tbl) := by
  refine rowNeeds_none ?_ hn
  rw [decoded_word_of_not_slot h.count hf.1 hf.2.1 hf.2.2]
  exact h0

theorem rowNeeds_listed (h : Format bin 9) {f : FpField} {tbl : List FujiLookup}
    (hs : layout[slotIndex f]? = some (.setting f fun _ => tbl))
    (h0 : 0 ∈ FujiLookup.values tbl) (hn : needs f = none) : RowNeeds bin (f, some tbl) :=
  rowNeeds_none ((printable_setting_iff h hs).mpr (.inl h0)) hn

theorem rowNeeds_unlisted (h : Format bin 9) {f : FpField} {tbl : List FujiLookup}
    (hs : layout[slotIndex f]? = some (.setting f fun _ => tbl))
    (h0 : 0 ∉ FujiLookup.values tbl) (hn : needs f = some (slotIndex f)) :
    RowNeeds bin (f, some tbl) :=
  rowNeeds_some ((printable_setting_iff h hs).trans (or_iff_right h0)) hn

theorem rowNeeds_tone (h : Format bin 9) {f : FpField}
    (hs : layout[slotIndex f]? = some (.setting f toneTable)) (hn : needs f = none) :
    RowNeeds bin (f, some (toneTable (iopCodeOf bin))) := by
  have h0 : 0 ∈ FujiLookup.values (toneTable (iopCodeOf bin)) := by
    rw [toneTable]
    split <;> decide
  exact rowNeeds_none ((printable_setting_iff h hs).mpr (.inl h0)) hn

/-- **Each row of the dump of an accepted blob.** -/
theorem rowNeeds_dumpRows (h : Format bin 9) : ∀ row ∈ dumpRows (decoded bin), RowNeeds bin row := by
  have hstruct : (decoded bin).word .structVer = 0x10000 := by
    rw [decoded, storedUpTo, FujiProfile.assign_word,
      last_storedWords_eq_none (show nPropsOf bin ≤ 29 from h.count), Option.getD_none]
    rfl
  have hversion : Printable ((decoded bin).word .structVer) (some fpStructVer) := by
    rw [hstruct]
    exact List.mem_singleton.mpr rfl
  have hnull (v : UInt32) : Printable v none := trivial
  obtain ⟨heffect, hsize⟩ := printable_grain_iff h
  simp only [dumpRows, fpGetHighlightTone, fpGetShadowTone, decoded_iopCode h.count,
    List.forall_mem_cons]
  and_intros
  all_goals with_reducible first
    | exact rowNeeds_none (hnull _) rfl
    | exact rowNeeds_none hversion rfl
    | exact rowNeeds_some heffect rfl
    | exact rowNeeds_none hsize rfl
    | exact rowNeeds_tone h rfl rfl
    | exact rowNeeds_listed h rfl (by decide) rfl
    | exact rowNeeds_unlisted h rfl (by decide) rfl
    | exact rowNeeds_const h (by decide) (by decide) rfl
    | exact fun row hrow => absurd hrow List.not_mem_nil

/-- **When the profile of an accepted blob is printed without an error.** -/
theorem fpDumpStruct_decoded_iff {fp q : FujiProfile} (h : fpParseD185 bin fp = some (0, q)) :
    (fpDumpStruct q).1 = 0 ↔ ∀ i ∈ zeroless, i < nPropsOf bin ∧ wordAt bin i ≠ 0 := by
  obtain ⟨hformat, rfl⟩ := fpParseD185_eq_iff.mp h
  have hrows : (fpDumpStruct (decoded bin)).1 = 0 ↔
      ∀ row ∈ dumpRows (decoded bin), ∀ i, needs row.1 = some i → slotWord bin i ≠ 0 := by
    rw [fpDumpStruct_eq_zero_iff]
    exact forall₂_congr fun row hrow => rowNeeds_dumpRows hformat row hrow
  rw [hrows]
  simp only [← slotWord_ne_zero_iff]
  constructor
  · intro hall i hi
    have hrow : ∃ row ∈ dumpRows (decoded bin), needs row.1 = some i := by
      have hat {k : ℕ} {row : FpField × Option (List FujiLookup)}
          (hk : (dumpRows (decoded bin))[k]? = some row) (hn : needs row.1 = some i) :
          ∃ row ∈ dumpRows (decoded bin), needs row.1 = some i :=
        ⟨row, List.mem_of_getElem? hk, hn⟩
      simp only [zeroless, List.mem_cons, List.not_mem_nil, or_false] at hi
      -- the rows in the order of the properties
      rcases hi with rfl | rfl | rfl | rfl | rfl | rfl | rfl | rfl | rfl | rfl
      · exact hat (k := 5) rfl rfl
      · exact hat (k := 6) rfl rfl
      · exact hat (k := 8) rfl rfl
      · exact hat (k := 10) rfl rfl
      · exact hat (k := 12) rfl rfl
      · exact hat (k := 15) rfl rfl
      · exact hat (k := 17) rfl rfl
      · exact hat (k := 20) rfl rfl
      · exact hat (k := 31) rfl rfl
      · exact hat (k := 32) rfl rfl
    obtain ⟨row, hrow, hneeds⟩ := hrow
    exact hall row hrow i hneeds
  · intro hall row _ i hi
    have hmem : i ∈ zeroless := by
      generalize row.1 = f at hi
      cases f <;> cases hi <;> decide
    exact hall i hmem

/-- A blob with the words of ten settings. -/
def tenSettings : List UInt8 :=
  leBytes 2 22 ++ leBytes 1 0 ++ List.replicate 510 0
    ++ [0, 7, 7, 2, 0, 100, 0, 1, 1, 1, 1, 0, 0, 0, 0, 0, 0, 0, 0, 0, 1, 1].flatMap (leBytes 4)

theorem fpDumpStruct_tenSettings :
    ∃ q, fpParseD185 tenSettings .zero = some (0, q) ∧ (fpDumpStruct q).1 = 0 := by
  have hrc : (fpParseD185 tenSettings .zero).map Prod.fst = some 0 := by decide +kernel
  obtain ⟨⟨rc, q⟩, hq, rfl⟩ := Option.map_eq_some_iff.mp hrc
  exact ⟨q, hq, (fpDumpStruct_decoded_iff hq).mpr (by decide +kernel)⟩

/-- A blob without properties is accepted, and its file type has no name. -/
theorem fpDumpStruct_fails : ¬ ∀ (bin : List UInt8) (fp q : FujiProfile),
    fpParseD185 bin fp = some (0, q) → (fpDumpStruct q).1 = 0 := by
  intro h
  have hrun : (fpParseD185 (List.replicate 0x200 0) .zero).map
      (fun r => (r.1, (fpDumpStruct r.2).1)) = some (0, -1) := by decide +kernel
  obtain ⟨⟨rc, q⟩, hq, hcodes⟩ := Option.map_eq_some_iff.mp hrun
  obtain ⟨rfl, hdump⟩ := Prod.mk.inj hcodes
  have hcode : (fpDumpStruct q).1 = -1 := hdump
  have hzero : (fpDumpStruct q).1 = 0 := h _ _ q hq
  omega

end Decoded

end D185

end Fuji
