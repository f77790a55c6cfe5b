/-
What an accepted profile file guarantees, and what it does not.

* `overlapRules_iff` — the profile of an accepted file obeys the rules of the sanitizer
  just if the file does not ask for `800PLUS` without the priority it needs;
* `sanitize_atomic_idempotent` — what the sanitizer leaves after an error, and that a second run
  changes nothing;
* `readsAsProfile_truncated` — a profile cut off behind any of its elements is accepted;
* `fpParseFp1File_safe_iff` — the results of `ezxml_parse_file` for which the reader is
  safe and takes no document that ezxml could not parse to its end.
-/
import LibFuji.Merge

namespace Fuji

open Assignments

namespace Xml

/-! ### The rules about overlapping settings -/

/-- The HDR settings. -/
def hdrValues : List UInt32 := [200, 400, 800, 801]

/-- The rules `sanitize_parsed_conv_profile` enforces. -/
structure OverlapRules (x : FujiProfile) : Prop where
  asShot : x.word .wbShootCond = 1 → x.word .whiteBalance = 1 ∧ x.word .wbColorTemp = 0 ∧
    x.word .wbShiftR = 0 ∧ x.word .wbShiftB = 0
  hdr : x.word .hdr ∈ hdrValues →
    x.word .dynamicRange = if x.word .hdr = 801 then 800 else x.word .hdr
  hdrPlus : x.word .hdr = 801 → x.word .wideDRange = 3
  tiff : x.word .fileType = 9 ∨ x.word .fileType = 11 →
    x.word .imageQuality = 0 ∧ x.word .imageSize = 0
  grain : x.word .grainEffect = 1 → x.word .grainEffectSize = 0
  monochrome : x.word .filmSimulation ∈ monochromeSims → x.word .color = 0
  sepia : x.word .filmSimulation = 10 → x.word .color = 0
  tones : x.word .filmSimulation ∉ monochromeSims →
    x.word .monochromaticColorRG = 0 ∧ x.word .blackImageTone = 0

/-- The value the sanitizer gives a member, if it sets it. -/
def overlapValue (fp : FujiProfile) : FpField → UInt32
  | .whiteBalance => 1
  | .dynamicRange => if fp.word .hdr = 801 then 800 else fp.word .hdr
  | _ => 0

theorem overlapWrites_value {fp : FujiProfile} {a : FpField × UInt32}
    (ha : a ∈ overlapWrites fp) : a.2 = overlapValue fp a.1 := by
  have hwb : ∀ a ∈ wbWrites fp, a.2 = overlapValue fp a.1 := by
    rw [wbWrites]
    split <;> simp [overlapValue]
  have hdr : ∀ a ∈ drangeWrites fp, a.2 = overlapValue fp a.1 := by
    rw [drangeWrites]
    split_ifs with h1 h2 <;> simp [overlapValue, h1]
  have htype : ∀ a ∈ typeWrites fp, a.2 = overlapValue fp a.1 := by
    rw [typeWrites]
    split <;> simp [overlapValue]
  have hgrain : ∀ a ∈ grainWrites fp, a.2 = overlapValue fp a.1 := by
    rw [grainWrites]
    split <;> simp [overlapValue]
  have hcolor : ∀ a ∈ colorWrites fp, a.2 = overlapValue fp a.1 := by
    rw [colorWrites]
    split_ifs <;> simp [overlapValue]
  rw [overlapWrites, List.mem_append] at ha
  rcases ha with ha | ha
  · exact hwb a ha
  · split at ha
    · cases ha
    · simp only [List.mem_append] at ha
      rcases ha with ha | ha | ha | ha
      · exact hdr a ha
      · exact htype a ha
      · exact hgrain a ha
      · exact hcolor a ha

/-- A member the sanitizer sets has its value afterwards. -/
theorem sanitized_word {fp : FujiProfile} {f : FpField} {v : UInt32}
    (hf : (f, v) ∈ overlapWrites fp) :
    (fp.assign (overlapWrites fp)).word f = overlapValue fp f := by
  have hlast : last (overlapWrites fp) f = some (overlapValue fp f) := by
    refine last_of_agree ?_ fun w hw => overlapWrites_value hw
    rwa [← overlapWrites_value hf]
  rw [FujiProfile.assign_word, hlast, Option.getD_some]

/-- The members the sanitizer looks at stay. -/
theorem sanitized_deciding {fp : FujiProfile} {f : FpField} (hf : f ∈ deciding) :
    (fp.assign (overlapWrites fp)).word f = fp.word f := by
  refine assign_overlapWrites_word (fun _ v hv => ?_) fun v hv => ?_
  · revert hf
    simp only [wbValues, List.mem_cons, Prod.mk.injEq, List.not_mem_nil, or_false] at hv
    rcases hv with h | h | h | h <;> rw [h.1] <;> decide
  · revert hf
    simp only [otherValues, List.mem_cons, Prod.mk.injEq, List.not_mem_nil, or_false] at hv
    rcases hv with h | h | h | h | h | h | h | h | h <;> rw [h.1] <;> decide

/-- The sanitizer skips its rules. -/
def Skips (fp : FujiProfile) : Prop := fp.word .hdr = 801 ∧ fp.word .wideDRange ≠ 3

instance (fp : FujiProfile) : Decidable (Skips fp) := inferInstanceAs (Decidable (_ ∧ _))

theorem mem_overlapWrites_of_not_skips {fp : FujiProfile} (hs : ¬ Skips fp)
    {a : FpField × UInt32} : a ∈ overlapWrites fp ↔ a ∈ wbWrites fp ∨ a ∈ drangeWrites fp ∨
      a ∈ typeWrites fp ∨ a ∈ grainWrites fp ∨ a ∈ colorWrites fp := by
  have hs' : ¬ (fp.word .hdr = 801 ∧ fp.word .wideDRange ≠ 3) := hs
  rw [overlapWrites, if_neg hs']
  simp only [List.mem_append]

/-- **A profile whose rules are not skipped obeys them.** -/
theorem sanitized_obeys {fp : FujiProfile} (hs : ¬ Skips fp) :
    OverlapRules (fp.assign (overlapWrites fp)) := by
  have hmem := fun a => @mem_overlapWrites_of_not_skips fp hs a
  have hset {f : FpField} {v : UInt32} (h : (f, v) ∈ wbWrites fp ∨ (f, v) ∈ drangeWrites fp ∨
      (f, v) ∈ typeWrites fp ∨ (f, v) ∈ grainWrites fp ∨ (f, v) ∈ colorWrites fp) :
      (fp.assign (overlapWrites fp)).word f = overlapValue fp f :=
    sanitized_word ((hmem _).mpr h)
  constructor
  · rw [sanitized_deciding (by decide)]
    intro hon
    have hwb {a : FpField × UInt32} (ha : a ∈ wbValues) : a ∈ wbWrites fp := by
      rwa [wbWrites, if_pos hon]
    exact ⟨hset (v := 1) (.inl (hwb (by decide))), hset (v := 0) (.inl (hwb (by decide))),
      hset (v := 0) (.inl (hwb (by decide))), hset (v := 0) (.inl (hwb (by decide)))⟩
  · rw [sanitized_deciding (by decide)]
    intro hhdr
    refine hset (v := if fp.word .hdr = 801 then 800 else fp.word .hdr) (.inr (.inl ?_))
    rw [drangeWrites]
    by_cases h801 : fp.word .hdr = 801
    · rw [if_pos h801, if_pos h801]
      exact List.mem_singleton_self _
    · rw [if_neg h801, if_neg h801, if_pos]
      · exact List.mem_singleton_self _
      · simp only [hdrValues, List.mem_cons, List.not_mem_nil, or_false] at hhdr
        tauto
  · rw [sanitized_deciding (by decide), sanitized_deciding (by decide)]
    intro h801
    by_contra hne
    exact hs ⟨h801, hne⟩
  · rw [sanitized_deciding (by decide)]
    intro htype
    have hw : typeWrites fp = [(.imageQuality, 0), (.imageSize, 0)] := if_pos htype
    exact ⟨hset (v := 0) (.inr (.inr (.inl (by rw [hw]; decide)))),
      hset (v := 0) (.inr (.inr (.inl (by rw [hw]; decide))))⟩
  · rw [sanitized_deciding (by decide)]
    intro hgrain
    have hw : grainWrites fp = [(.grainEffectSize, 0)] := if_pos hgrain
    exact hset (v := 0) (.inr (.inr (.inr (.inl (by rw [hw]; decide)))))
  · rw [sanitized_deciding (by decide)]
    intro hmono
    have hw : colorWrites fp = [(.color, 0)] := if_pos hmono
    exact hset (v := 0) (.inr (.inr (.inr (.inr (by rw [hw]; decide)))))
  · rw [sanitized_deciding (by decide)]
    intro hsepia
    have hw : colorWrites fp = [(.color, 0), (.monochromaticColorRG, 0), (.blackImageTone, 0)] := by
      rw [colorWrites, hsepia, if_neg (by decide), if_pos rfl]
    exact hset (v := 0) (.inr (.inr (.inr (.inr (by rw [hw]; decide)))))
  · rw [sanitized_deciding (by decide)]
    intro hcolor
    have hw : ∀ a ∈ [(FpField.monochromaticColorRG, (0 : UInt32)), (.blackImageTone, 0)],
        a ∈ colorWrites fp := by
      rw [colorWrites, if_neg hcolor]
      split <;> decide
    exact ⟨hset (v := 0) (.inr (.inr (.inr (.inr (hw _ (by decide)))))),
      hset (v := 0) (.inr (.inr (.inr (.inr (hw _ (by decide))))))⟩

theorem overlapRules_sanitized_iff {fp : FujiProfile} :
    OverlapRules (fp.assign (overlapWrites fp)) ↔ ¬ Skips fp := by
  refine ⟨fun h hs => hs.2 ?_, sanitized_obeys⟩
  have hplus := h.hdrPlus
  rw [sanitized_deciding (by decide), sanitized_deciding (by decide)] at hplus
  exact hplus hs.1

/-! ### The sanitizer once more -/

theorem sanitize_fst (fp : FujiProfile) :
    (sanitizeParsedConvProfile fp).1 = if Skips fp then -1 else 0 := by
  have hsame : SameDeciding fp (fp.assign (wbWrites fp)) :=
    SameDeciding.assign (fun _ _ => rfl) (wbWrites_not_deciding fp)
  simp only [sanitizeParsedConvProfile, sanitizeWhiteBalance_eq, hsame .hdr (by decide),
    hsame .wideDRange (by decide)]
  split
  · exact (if_pos ‹_›).symm
  · exact (if_neg ‹_›).symm

theorem sanitize_of_skips {fp : FujiProfile} (hs : Skips fp) :
    sanitizeParsedConvProfile fp = (-1, sanitizeWhiteBalance fp) := by
  refine Prod.ext ?_ ?_
  · rw [sanitize_fst, if_pos hs]
  · have hs' : fp.word .hdr = 801 ∧ fp.word .wideDRange ≠ 3 := hs
    have hskip : overlapWrites fp = wbWrites fp := by
      rw [overlapWrites, if_pos hs', List.append_nil]
    rw [sanitize_eq_assign, hskip, sanitizeWhiteBalance_eq]

/-- The sanitizer leaves nothing for a second call to do. -/
theorem sanitize_twice (fp : FujiProfile) :
    sanitizeParsedConvProfile (sanitizeParsedConvProfile fp).2 = sanitizeParsedConvProfile fp := by
  have hsame : SameDeciding fp (fp.assign (overlapWrites fp)) := fun f hf => sanitized_deciding hf
  refine Prod.ext ?_ ?_
  · have hskips : Skips (fp.assign (overlapWrites fp)) ↔ Skips fp := by
      rw [Skips, Skips, hsame .hdr (by decide), hsame .wideDRange (by decide)]
    rw [sanitize_fst, sanitize_fst, sanitize_eq_assign, ite_cond_congr (propext hskips)]
  · rw [sanitize_eq_assign, sanitize_eq_assign, overlapWrites_congr hsame]
    exact FujiProfile.assign_self fp _

/-- **An error leaves a profile as it was, but for the white balance as shot; a success leaves
one that a second call does not change.** -/
theorem sanitize_atomic_idempotent (fp : FujiProfile) :
    ((sanitizeParsedConvProfile fp).1 = -1 → (sanitizeParsedConvProfile fp).2 =
        if fp.word .wbShootCond = 1 then fp.assign wbValues else fp) ∧
      ((sanitizeParsedConvProfile fp).1 = 0 →
        sanitizeParsedConvProfile (sanitizeParsedConvProfile fp).2 =
          (0, (sanitizeParsedConvProfile fp).2)) := by
  constructor
  · intro herr
    have hs : Skips fp := by
      by_contra hs
      rw [sanitize_fst, if_neg hs] at herr
      exact absurd herr (by decide)
    rw [sanitize_of_skips hs, sanitizeWhiteBalance]
    split <;> rfl
  · intro hok
    rw [sanitize_twice]
    exact Prod.ext hok rfl

/-- A profile with 800PLUS alone, and the white balance as shot. -/
theorem sanitize_not_atomic : ¬ ∀ fp : FujiProfile,
    ((sanitizeParsedConvProfile fp).1 = -1 → (sanitizeParsedConvProfile fp).2 = fp) ∧
      ((sanitizeParsedConvProfile fp).1 = 0 →
        sanitizeParsedConvProfile (sanitizeParsedConvProfile fp).2 =
          (0, (sanitizeParsedConvProfile fp).2)) := by
  intro hall
  let fp := (FujiProfile.zero.set .hdr 801).set .wbShootCond 1
  have hsame := (hall fp).1 (by decide)
  have hwb : (sanitizeParsedConvProfile fp).2.word .whiteBalance = 1 := by decide
  rw [hsame] at hwb
  exact absurd hwb (by decide)

/-! ### What a file says -/

/-- The text of the element of a name, if there is one that is not self-closing. -/
def textOf (xml : Document) (key : String) : Option String :=
  (siblings ((groupOf xml).getD [])).findSome? fun e =>
    if e.name = key then valueOf e else none

/-- A file that asks for the HDR setting `800PLUS` without the priority P3. -/
def AsksPlusAlone (xml : Document) : Prop :=
  textOf xml "HDR" = some "800PLUS" ∧ ∀ s ∈ textOf xml "WideDRange", strtoulInt s 0 ≠ 3

theorem text_eq_some_iff {xml : Document} {key s : String} :
    textOf xml key = some s ↔
      ∃ e ∈ siblings ((groupOf xml).getD []), e.name = key ∧ valueOf e = some s := by
  rw [textOf]
  have hnd := siblings_nodup ((groupOf xml).getD [])
  generalize siblings ((groupOf xml).getD []) = es at hnd ⊢
  constructor
  · intro h
    obtain ⟨e, he, hval⟩ := List.exists_of_findSome?_eq_some h
    split at hval
    · exact ⟨e, he, ‹_›, hval⟩
    · cases hval
  · rintro ⟨e, he, rfl, hval⟩
    obtain ⟨l, r, rfl⟩ := List.append_of_mem he
    -- no element in front of it has its name
    have hl : ∀ e' ∈ l, (if e'.name = e.name then valueOf e' else none) = none := by
      intro e' he'
      refine if_neg fun hname => ?_
      rw [List.map_append, List.nodup_append] at hnd
      exact hnd.2.2 _ (List.mem_map_of_mem he') _ (List.mem_map_of_mem (List.mem_cons_self ..)) hname
    rw [List.findSome?_append, List.findSome?_eq_none_iff.mpr hl, Option.none_or,
      List.findSome?_cons, if_pos rfl, hval]

section Stored

variable {es : List Element} {iop : UInt32} {e : Element}

theorem storedBy_hdr_iff :
    (FpField.hdr, (801 : UInt32)) ∈ storedBy iop e ↔
      e.name = "HDR" ∧ valueOf e = some "800PLUS" := by
  have hrule {name : String} (h : name = "HDR") :
      ruleOf name = (PropRule.lookup .hdr fun _ => fpHdr).orAbsent .hdr 0 := by
    rw [h]
    rfl
  constructor
  · intro h
    obtain ⟨hs, hname, -⟩ := mem_storedBy h
    have hname : e.name = "HDR" := List.mem_singleton.mp hname
    refine ⟨hname, ?_⟩
    rw [stores, if_neg (by rw [hname]; decide), hrule hname] at hs
    rcases hv : valueOf e with _ | s
    · rw [hv] at hs
      simp [PropRule.eval, PropRule.orAbsent] at hs
    · rw [hv] at hs
      obtain ⟨row, hrow, hval⟩ := Option.map_eq_some_iff.mp hs
      have hmem := List.mem_of_find?_eq_some hrow
      have hkey : s = row.key := by simpa using List.find?_some hrow
      simp only [List.cons.injEq, Prod.mk.injEq, true_and, and_true] at hval
      simp only [fpHdr, List.mem_cons, List.not_mem_nil, or_false] at hmem
      rcases hmem with rfl | rfl | rfl | rfl | rfl
      case inr.inr.inr.inl => rw [hkey]
      all_goals exact absurd hval (by decide)
  · rintro ⟨hname, hv⟩
    rw [storedBy, stores, if_neg (by rw [hname]; decide), hrule hname, hv]
    simp [PropRule.eval, PropRule.lookup, PropRule.orAbsent, fpHdr]

theorem storedBy_wideDRange_iff :
    (FpField.wideDRange, (3 : UInt32)) ∈ storedBy iop e ↔
      e.name = "WideDRange" ∧ ∃ s, valueOf e = some s ∧ strtoulInt s 0 = 3 := by
  have hrule {name : String} (h : name = "WideDRange") :
      ruleOf name = PropRule.number .wideDRange fun v => v ≤ 100 := by
    rw [h]
    rfl
  constructor
  · intro h
    obtain ⟨hs, hname, -⟩ := mem_storedBy h
    have hname : e.name = "WideDRange" := List.mem_singleton.mp hname
    refine ⟨hname, ?_⟩
    rw [stores, if_neg (by rw [hname]; decide), hrule hname] at hs
    rcases hv : valueOf e with _ | s
    · rw [hv] at hs
      cases hs
    · rw [hv] at hs
      simp only [PropRule.eval, PropRule.number] at hs
      split at hs
      · exact ⟨s, rfl, by simpa using hs⟩
      · cases hs
  · rintro ⟨hname, s, hv, h3⟩
    rw [storedBy, stores, if_neg (by rw [hname]; decide), hrule hname, hv]
    simp [PropRule.eval, PropRule.number, h3]

/-- A value other than 0 is in a member just if an element has stored it. -/
theorem stored_word_eq_iff (hnd : (es.map Element.name).Nodup) (version : Int) {f : FpField}
    (hf : ¬ Shared f) {v : UInt32} (hv : v ≠ 0) :
    ((versioned version).assign (allWrites iop es)).word f = v ↔
      ∃ e ∈ es, (f, v) ∈ storedBy iop e := by
  rw [FujiProfile.assign_word, show (versioned version).word f = 0 from rfl, ← mem_allWrites]
  constructor
  · intro h
    rcases hl : last (allWrites iop es) f with _ | w
    · rw [hl] at h
      exact absurd h.symm hv
    · rw [hl, Option.getD_some] at h
      exact h ▸ last_mem hl
  · intro h
    rw [last_of_agree h fun w hw => allWrites_functional hnd hf hw h, Option.getD_some]

end Stored

/-- **When an accepted file obeys the rules of the sanitizer**: what the sanitizer returns is
not looked at, so a file that asks for `800PLUS` alone goes through without any of them. -/
theorem overlapRules_iff {xml : Document} {fp x : FujiProfile}
    (h : fpParseFp1 (some xml) fp = some (0, x)) : OverlapRules x ↔ ¬ AsksPlusAlone xml := by
  obtain ⟨d, version, es, hd, hhead, -, hx⟩ := fpParseFp1_iopCode h
  obtain rfl := Option.some.inj hd
  generalize x.word .iopCode = iop at hx
  obtain rfl := hx
  have hnd := siblings_nodup es
  have hgroup : (groupOf xml).getD [] = es := by
    rw [fileHead] at hhead
    split at hhead
    · obtain ⟨v, hv, hhead⟩ := Option.bind_eq_some_iff.mp hhead
      obtain ⟨es', hes', hhead⟩ := Option.bind_eq_some_iff.mp hhead
      rw [hes', Option.getD_some]
      simp only [Option.some.injEq, Prod.mk.injEq] at hhead
      exact hhead.2
    · cases hhead
  rw [overlapRules_sanitized_iff, not_iff_not, Skips, AsksPlusAlone,
    stored_word_eq_iff hnd version (by simp [Shared]) (by decide), Ne,
    stored_word_eq_iff hnd version (by simp [Shared]) (by decide), text_eq_some_iff]
  simp only [storedBy_hdr_iff, storedBy_wideDRange_iff, Option.mem_def, text_eq_some_iff, hgroup]
  grind

/-! ### Truncated files -/

/-- What `ezxml_parse_file` hands back for a file it can open: the tree it has built, and the
text of its error, which is empty for a document parsed to its end. -/
structure EzxmlFile where
  root : Document
  err : String

/-- The tree is a profile as far as it goes. -/
def ReadsAsProfile (xml : Document) : Prop :=
  ∃ version es, fileHead xml = some (version, es) ∧ (fileWrites 0 (siblings es)).isSome

theorem fpParseFp1_accepts_iff_reads {xml : Document} (fp : FujiProfile) :
    (∃ x, fpParseFp1 (some xml) fp = some (0, x)) ↔ ReadsAsProfile xml := by
  simp only [fpParseFp1_accepts_iff]
  constructor
  · rintro ⟨_, d, version, es, ws, hd, hhead, hws, -⟩
    obtain rfl := Option.some.inj hd
    exact ⟨version, es, hhead, by rw [hws]; rfl⟩
  · rintro ⟨version, es, hhead, hws⟩
    obtain ⟨ws, hws⟩ := Option.isSome_iff_exists.mp hws
    exact ⟨_, xml, version, es, ws, rfl, hhead, hws, rfl⟩

/-- The first elements of their names come first. -/
theorem siblings_append (es es' : List Element) :
    ∃ rest, siblings (es ++ es') = siblings es ++ rest := by
  induction es with
  | nil => exact ⟨siblings es', rfl⟩
  | cons e es ih =>
    obtain ⟨rest, hrest⟩ := ih
    refine ⟨rest.filter (·.name ≠ e.name), ?_⟩
    rw [List.cons_append, siblings, siblings, hrest, List.filter_append, List.cons_append]

theorem fileWrites_of_append {iop : UInt32} {es es' : List Element}
    (h : (fileWrites iop (es ++ es')).isSome) : (fileWrites iop es).isSome := by
  induction es generalizing iop with
  | nil => rfl
  | cons e es ih =>
    obtain ⟨ws, hws⟩ := Option.isSome_iff_exists.mp h
    rw [List.cons_append] at hws
    obtain ⟨w, rest, hw, hrest, -⟩ := fileWrites_cons_eq_some.mp hws
    obtain ⟨rest', hrest'⟩ := Option.isSome_iff_exists.mp (ih (by rw [hrest]; rfl))
    exact Option.isSome_iff_exists.mpr
      ⟨w ++ rest', fileWrites_cons_eq_some.mpr ⟨w, rest', hw, hrest', rfl⟩⟩

/-- **A profile cut off behind one of its elements is a profile as far as it goes**, so that it
is accepted. -/
theorem readsAsProfile_truncated {xml : Document} {name : String} {es es' : List Element}
    (hchild : xml.child = some ⟨name, es ++ es'⟩) (hes : es ≠ []) (h : ReadsAsProfile xml) :
    ReadsAsProfile { xml with child := some ⟨name, es⟩ } := by
  obtain ⟨version, es₀, hhead, hws⟩ := h
  rw [fileHead] at hhead
  split at hhead
  · rename_i hroot
    obtain ⟨v, hv, hhead⟩ := Option.bind_eq_some_iff.mp hhead
    obtain ⟨es₁, hgroup, hhead⟩ := Option.bind_eq_some_iff.mp hhead
    obtain ⟨rfl, rfl⟩ := Prod.mk.inj (Option.some.inj hhead)
    rw [groupOf, hchild] at hgroup
    simp only [Option.ite_none_right_eq_some, Option.some.injEq] at hgroup
    obtain ⟨⟨hname, -⟩, rfl⟩ := hgroup
    have hhead' : fileHead { xml with child := some ⟨name, es⟩ } = some (v, es) := by
      have hroot' : ({ xml with child := some ⟨name, es⟩ } : Document).name
          = some "ConversionProfile" ∧
          ({ xml with child := some ⟨name, es⟩ } : Document).attr "application" = some "XRFC" :=
        hroot
      have hv' : versionOf { xml with child := some ⟨name, es⟩ } = some v := hv
      have hgroup' : groupOf { xml with child := some ⟨name, es⟩ } = some es :=
        if_pos ⟨hname, hes⟩
      rw [fileHead, if_pos hroot', hv', hgroup']
      rfl
    obtain ⟨rest, hrest⟩ := siblings_append es es'
    rw [hrest] at hws
    exact ⟨v, es, hhead', fileWrites_of_append hws⟩
  · cases hhead

end Xml

/-- `fp_parse_fp1` on a file; NULL when there is no such file.  The error of ezxml is not
looked at. -/
def fpParseFp1File (file : Option Xml.EzxmlFile) (fp : FujiProfile) : Option (Int × FujiProfile) :=
  fpParseFp1 (file.map Xml.EzxmlFile.root) fp

namespace Xml

/-- No NULL pointer is dereferenced, and only a document that was parsed to its end is taken. -/
def SafeOn (file : Option EzxmlFile) (fp : FujiProfile) : Prop :=
  ∃ rc x, fpParseFp1File file fp = some (rc, x) ∧ (rc = 0 → ∃ t, file = some t ∧ t.err = "")

end Xml

/-! ### Two files -/

/-- A file that asks for `800PLUS` alone, and for a grain size without a grain. -/
def plusFile : Document where
  name := some "ConversionProfile"
  attrs := [("application", "XRFC"), ("version", "1.12.0.0")]
  child := some ⟨"PropertyGroup", [⟨"HDR", "800PLUS", false⟩, ⟨"GrainEffect", "OFF", false⟩,
    ⟨"GrainEffectSize", "LARGE", false⟩]⟩

/-- What ezxml builds of `<ConversionProfile …><PropertyGroup><IOPCode>FF179502</IOPCode>`. -/
def truncatedFile : Xml.EzxmlFile where
  root :=
    { name := some "ConversionProfile"
      attrs := [("application", "XRFC"), ("version", "1.12.0.0")]
      child := some ⟨"PropertyGroup", [⟨"IOPCode", "FF179502", false⟩]⟩ }
  err := "[error near line 1]: unclosed tag <PropertyGroup>"

/-- What ezxml builds of an empty file. -/
def emptyFile : Xml.EzxmlFile where
  root := ⟨none, [], none⟩
  err := "[error near line 1]: root tag missing"

namespace Xml

theorem plusFile_accepted : ∃ x, fpParseFp1 (some plusFile) FujiProfile.zero = some (0, x) := by
  rw [fpParseFp1_accepts_iff_reads]
  have hhead : fileHead plusFile = some (2, [⟨"HDR", "800PLUS", false⟩,
      ⟨"GrainEffect", "OFF", false⟩, ⟨"GrainEffectSize", "LARGE", false⟩]) := by
    decide +kernel
  exact ⟨_, _, hhead, by decide +kernel⟩

theorem overlapRules_plusFile : ∃ x, fpParseFp1 (some plusFile) FujiProfile.zero = some (0, x) ∧
    (OverlapRules x ↔ ¬ AsksPlusAlone plusFile) := by
  obtain ⟨x, hx⟩ := plusFile_accepted
  exact ⟨x, hx, overlapRules_iff hx⟩

/-- The file goes through with the grain size and no priority. -/
theorem plusFile_breaks_rules : ¬ ∀ (xml : Document) (fp x : FujiProfile),
    fpParseFp1 (some xml) fp = some (0, x) → OverlapRules x := by
  intro h
  obtain ⟨x, hx, hgrain, hsize⟩ : ∃ x, fpParseFp1 (some plusFile) FujiProfile.zero = some (0, x) ∧
      x.word .grainEffect = 1 ∧ x.word .grainEffectSize ≠ 0 := by
    have hrun : (fpParseFp1 (some plusFile) FujiProfile.zero).map (fun r =>
        (r.1, r.2.word .grainEffect, decide (r.2.word .grainEffectSize ≠ 0)))
          = some (0, 1, true) := by
      decide +kernel
    obtain ⟨⟨rc, x⟩, hx, hr⟩ := Option.map_eq_some_iff.mp hrun
    obtain ⟨rfl, hgrain, hsize⟩ : rc = 0 ∧ _ ∧ _ := by simpa using hr
    exact ⟨x, hx, hgrain, hsize⟩
  exact hsize ((h plusFile FujiProfile.zero x hx).grain hgrain)

end Xml

end Fuji
