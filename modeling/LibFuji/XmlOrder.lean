/-
The order of the elements of a profile file.

The tone texts are looked up with the table of the IOP code in force, which is 0 until
the element of the code has been read, and two members are written by elements of more
than one name.  `fpParseFp1_perm_iff` says that nothing else depends on the order: with
pairwise distinct names every permutation of the elements is read the same way if and
only if the group is `OrderFree`.
-/
import LibFuji.XmlParse

namespace Fuji

open Assignments

namespace Xml

/-- The same code, and for code 0 the same profile. -/
def SameResult (r r' : Int × FujiProfile) : Prop := r.1 = r'.1 ∧ (r.1 = 0 → r = r')

theorem SameResult.symm {r r' : Int × FujiProfile} (h : SameResult r r') : SameResult r' r :=
  ⟨h.1.symm, fun h0 => (h.2 (h.1.trans h0)).symm⟩

theorem SameResult.trans {r r' r'' : Int × FujiProfile} (h : SameResult r r')
    (h' : SameResult r' r'') : SameResult r r'' :=
  ⟨h.1.trans h'.1, fun h0 => (h.2 h0).trans (h'.2 (h.1.symm.trans h0))⟩

/-- All assignments to `f` give it the same value. -/
def Agree (ws : List (FpField × UInt32)) (f : FpField) : Prop :=
  ∀ v v', (f, v) ∈ ws → (f, v') ∈ ws → v = v'

/-- Groups whose elements can be read in any order.  Either an element is refused even
with the tone table of the code of the file; or all are taken even with that of code 0,
and those that write the same member agree.  A shift that the white balance as shot
overrides need not agree. -/
def OrderFree (es : List Element) : Prop :=
  (∃ e ∈ es, stores (fileCode es) e = none) ∨
    (∀ e ∈ es, (stores 0 e).isSome) ∧ Agree (allWrites 0 es) .wbShootCond ∧
      ((.wbShootCond, 1) ∉ allWrites 0 es → Agree (allWrites 0 es) .wbShiftR)

theorem siblings_of_nodup {es : List Element} (hnd : (es.map Element.name).Nodup) :
    siblings es = es := by
  induction es with
  | nil => rfl
  | cons e es ih =>
    rw [List.map_cons, List.nodup_cons] at hnd
    rw [siblings, ih hnd.2, List.filter_eq_self.mpr]
    intro e' he'
    have hne : e'.name ≠ e.name := fun h => hnd.1 (h ▸ List.mem_map_of_mem he')
    simpa using hne

section Order

variable {es : List Element} {version : Int}

theorem nodup_perm (hnd : (es.map Element.name).Nodup) {es' : List Element} (h : es'.Perm es) :
    (es'.map Element.name).Nodup := (h.map _).nodup_iff.mpr hnd

/-- A group that stores under code 0 is accepted, in any order. -/
theorem parseElements_of_stores (hnd : (es.map Element.name).Nodup)
    (hall : ∀ e ∈ es, (stores 0 e).isSome) :
    parseElements version es = (0, ((versioned version).assign (allWrites 0 es)).assign
      (overlapWrites ((versioned version).assign (allWrites 0 es)))) := by
  rw [parseElements_eq_iff, siblings_of_nodup hnd]
  exact ⟨_, fileWrites_of_stores hall 0, rfl⟩

/-- An element that is refused under the code of the file is refused in any order. -/
theorem parseElements_of_refused (hnd : (es.map Element.name).Nodup) {e : Element}
    (he : e ∈ es) (hno : stores (fileCode es) e = none) : (parseElements version es).1 = -1 := by
  rw [parseElements_fst, siblings_of_nodup hnd, if_neg]
  intro hsome
  obtain ⟨ws, hws⟩ := Option.isSome_iff_exists.mp hsome
  have := (fileWrites_eq_some hnd hws).1 e he
  simp [hno] at this

/-! ### Order free groups -/

theorem word_of_agree {es' : List Element} (hp : es'.Perm es) {f : FpField}
    (h : Agree (allWrites 0 es) f) :
    ((versioned version).assign (allWrites 0 es')).word f
      = ((versioned version).assign (allWrites 0 es)).word f := by
  rw [FujiProfile.assign_word, FujiProfile.assign_word, last_perm (allWrites_perm hp.symm) h]

theorem word_wbShootCond_of_mem (h : Agree (allWrites 0 es) .wbShootCond)
    (hon : (.wbShootCond, 1) ∈ allWrites 0 es) :
    ((versioned version).assign (allWrites 0 es)).word .wbShootCond = 1 := by
  rw [FujiProfile.assign_word, last_of_agree hon fun v hv => h v 1 hv hon, Option.getD_some]

/-- The white balance as shot resets the shift. -/
theorem overlap_wbShiftR {p : FujiProfile} (h : p.word .wbShootCond = 1) :
    (p.assign (overlapWrites p)).word .wbShiftR = 0 := by
  have hmem : (FpField.wbShiftR, (0 : UInt32)) ∈ overlapWrites p := by
    rw [overlapWrites, wbWrites, if_pos h]
    simp
  rw [FujiProfile.assign_word, last_of_agree hmem, Option.getD_some]
  intro v hv
  rcases mem_overlapWrites hv with ⟨-, hv⟩ | hv
  · simpa [wbValues] using hv
  · simp [otherValues] at hv

theorem sanitized_perm (hnd : (es.map Element.name).Nodup) {es' : List Element}
    (hp : es'.Perm es) (hcond : Agree (allWrites 0 es) .wbShootCond)
    (hshift : (.wbShootCond, 1) ∉ allWrites 0 es → Agree (allWrites 0 es) .wbShiftR) :
    let stored := fun es => (versioned version).assign (allWrites 0 es)
    (stored es').assign (overlapWrites (stored es'))
      = (stored es).assign (overlapWrites (stored es)) := by
  intro stored
  -- the two stored profiles differ at most in the shift, on which no rule depends
  have hword : ∀ f ≠ FpField.wbShiftR, (stored es').word f = (stored es).word f := by
    intro f hf
    by_cases hc : f = .wbShootCond
    · subst hc
      exact word_of_agree hp hcond
    · exact word_of_agree hp fun v v' => allWrites_functional hnd (by simp [Shared, hf, hc])
  have hsame : SameDeciding (stored es) (stored es') := fun f hf =>
    hword f (by rintro rfl; exact absurd hf (by decide))
  rw [overlapWrites_congr hsame]
  refine FujiProfile.ext rfl (funext fun f => ?_)
  by_cases hf : f = .wbShiftR
  · subst hf
    by_cases hon : (FpField.wbShootCond, 1) ∈ allWrites 0 es
    -- as shot: whatever the shifts are, the sanitizer resets them
    · have h1 : (stored es).word .wbShootCond = 1 := word_wbShootCond_of_mem hcond hon
      have h1' : (stored es').word .wbShootCond = 1 := (hword _ (by decide)).trans h1
      rw [overlap_wbShiftR h1, ← overlapWrites_congr hsame, overlap_wbShiftR h1']
    · exact FujiProfile.assign_word_congr (word_of_agree hp (hshift hon)) _
  · exact FujiProfile.assign_word_congr (hword f hf) _

/-! ### Groups that are not -/

/-- An element that only the table of the code takes depends on where the code stands. -/
theorem stores_zero_of_same (hnd : (es.map Element.name).Nodup)
    (hall : ∀ e ∈ es, (stores (fileCode es) e).isSome)
    (hsame : ∀ es', es'.Perm es →
      SameResult (parseElements version es) (parseElements version es')) :
    ∀ e ∈ es, (stores 0 e).isSome := by
  by_contra hno
  push Not at hno
  obtain ⟨e, he, hnone⟩ := hno
  rw [ne_eq, Bool.not_eq_true, Option.isSome_eq_false_iff, Option.isNone_iff_eq_none] at hnone
  -- the file gives a code, for otherwise 0 would be its code
  have hcode : fileCode es ≠ 0 := by
    intro h0
    have := hall e he
    simp [h0, hnone] at this
  obtain ⟨e₀, he₀, hname⟩ : ∃ e₀ ∈ es, e₀.name = "IOPCode" := by
    by_contra hno
    push Not at hno
    rw [fileCode, last_allWrites_code hno] at hcode
    exact hcode rfl
  -- with the code in front, all elements are taken
  have hp₀ : (e₀ :: es.erase e₀).Perm es := (List.perm_cons_erase he₀).symm
  have hnd₀ := nodup_perm hnd hp₀
  have hrest : ∀ e' ∈ es.erase e₀, e'.name ≠ "IOPCode" := by
    intro e' he' hname'
    rw [List.map_cons, List.nodup_cons] at hnd₀
    exact hnd₀.1 (hname.trans hname'.symm ▸ List.mem_map_of_mem he')
  have hfirst : (parseElements version (e₀ :: es.erase e₀)).1 = 0 := by
    obtain ⟨w, hw⟩ := Option.isSome_iff_exists.mp (hall e₀ he₀)
    rw [stores_code hname _ 0] at hw
    have hc : (last w .iopCode).getD 0 = fileCode es := by
      rw [← fileCode_perm hnd₀ hp₀, fileCode_cons hrest, storedBy, hw, Option.getD_some]
    have hwrites : fileWrites 0 (e₀ :: es.erase e₀)
        = some (w ++ allWrites (fileCode es) (es.erase e₀)) := by
      refine fileWrites_cons_eq_some.mpr ⟨w, _, hw, ?_, rfl⟩
      rw [hc, fileWrites_of_no_code hrest]
      exact ⟨fun e' he' => hall e' (List.mem_of_mem_erase he'), rfl⟩
    rw [parseElements_fst, siblings_of_nodup hnd₀, hwrites]
    rfl
  -- with `e` in front, it is refused
  have hp₁ : (e :: es.erase e).Perm es := (List.perm_cons_erase he).symm
  have hsecond : (parseElements version (e :: es.erase e)).1 = -1 := by
    rw [parseElements_fst, siblings_of_nodup (nodup_perm hnd hp₁), fileWrites, hnone]
    rfl
  have h := ((hsame _ hp₀).symm.trans (hsame _ hp₁)).1
  rw [hfirst, hsecond] at h
  exact absurd h (by decide)

theorem last_moved {e : Element} {f : FpField} {v : UInt32} (h : (f, v) ∈ storedBy 0 e)
    (es : List Element) : last (allWrites 0 (es ++ [e])) f = some v := by
  have hs : storedBy 0 e = [(f, v)] := by rw [storedBy, (mem_storedBy h).1, Option.getD_some]
  rw [allWrites, List.flatMap_append, List.flatMap_singleton, hs, last_append]
  simp [last]

/-- Two elements that write different values to a member the sanitizer leaves alone leave
the value of the later one. -/
theorem agree_of_same (hnd : (es.map Element.name).Nodup)
    (hall : ∀ e ∈ es, (stores 0 e).isSome)
    (hsame : ∀ es', es'.Perm es →
      SameResult (parseElements version es) (parseElements version es')) {f : FpField}
    (hf : ∀ es', es'.Perm es → ∀ stored, stored = (versioned version).assign (allWrites 0 es') →
      (stored.assign (overlapWrites stored)).word f = stored.word f) :
    Agree (allWrites 0 es) f := by
  -- whatever element writes `f`, its value is the one `es` itself leaves
  have hval : ∀ v, (f, v) ∈ allWrites 0 es → (parseElements version es).2.word f = v := by
    intro v hv
    obtain ⟨e, he, hv⟩ := mem_allWrites.mp hv
    have hp : (es.erase e ++ [e]).Perm es :=
      (List.perm_append_singleton e _).trans (List.perm_cons_erase he).symm
    have hall' : ∀ e' ∈ es.erase e ++ [e], (stores 0 e').isSome := fun e' he' =>
      hall e' (hp.mem_iff.mp he')
    have hrc : (parseElements version es).1 = 0 := by rw [parseElements_of_stores hnd hall]
    rw [(hsame _ hp).2 hrc, parseElements_of_stores (nodup_perm hnd hp) hall',
      hf _ hp _ rfl, FujiProfile.assign_word, last_moved hv, Option.getD_some]
  intro v v' hv hv'
  rw [← hval v hv, hval v' hv']

theorem orderFree_of_same (hnd : (es.map Element.name).Nodup)
    (hsame : ∀ es', es'.Perm es →
      SameResult (parseElements version es) (parseElements version es')) : OrderFree es := by
  by_cases hno : ∃ e ∈ es, stores (fileCode es) e = none
  · exact .inl hno
  · push Not at hno
    have hall := stores_zero_of_same hnd
      (fun e he => Option.isSome_iff_ne_none.mpr (hno e he)) hsame
    refine .inr ⟨hall, agree_of_same hnd hall hsame ?_, fun hoff =>
      agree_of_same hnd hall hsame ?_⟩
    · rintro es' - stored -
      exact assign_overlapWrites_word (fun _ v => by simp [wbValues]) fun v => by
        simp [otherValues]
    · rintro es' hp stored rfl
      refine assign_overlapWrites_word (fun hon => ?_) fun v => by simp [otherValues]
      -- the shift is reset only where an element has switched the condition on
      rw [FujiProfile.assign_word] at hon
      rcases hl : last (allWrites 0 es') .wbShootCond with _ | v
      · simp [hl, versioned] at hon
      · rw [hl, Option.getD_some] at hon
        subst hon
        exact absurd ((allWrites_perm hp).mem_iff.mp (last_mem hl)) hoff

/-- **Any order of the elements is as good as another just for `OrderFree` groups.** -/
theorem parseElements_perm_iff (version : Int) (hnd : (es.map Element.name).Nodup) :
    (∀ es', es'.Perm es →
      SameResult (parseElements version es) (parseElements version es')) ↔ OrderFree es := by
  refine ⟨orderFree_of_same hnd, ?_⟩
  rintro (⟨e, he, hno⟩ | ⟨hall, hcond, hshift⟩) es' hp
  · have hnd' := nodup_perm hnd hp
    have h1 : (parseElements version es).1 = -1 := parseElements_of_refused hnd he hno
    have h2 : (parseElements version es').1 = -1 :=
      parseElements_of_refused hnd' (hp.mem_iff.mpr he) (fileCode_perm hnd' hp ▸ hno)
    rw [SameResult, h1, h2]
    exact ⟨rfl, fun h => absurd h (by decide)⟩
  · rw [parseElements_of_stores hnd hall, parseElements_of_stores (nodup_perm hnd hp)
      fun e he => hall e (hp.mem_iff.mp he)]
    exact ⟨rfl, fun _ => congrArg _ (sanitized_perm hnd hp hcond hshift).symm⟩

end Order

/-! ### Whole files -/

/-- The file with other elements in its group. -/
def withElements (xml : Document) (es : List Element) : Document :=
  { xml with child := xml.child.map fun group => { group with children := es } }

theorem fileHead_withElements {xml : Document} {group : Group} (hchild : xml.child = some group)
    {es : List Element} (hp : es.Perm group.children) :
    fileHead (withElements xml es) = (fileHead xml).map fun head => (head.1, es) := by
  have hnil : es = [] ↔ group.children = [] := by
    rw [← List.length_eq_zero_iff, hp.length_eq, List.length_eq_zero_iff]
  have hgroup : groupOf (withElements xml es) = (groupOf xml).map fun _ => es := by
    simp only [groupOf, withElements, hchild, Option.map_some, ne_eq, hnil]
    split <;> rfl
  have hname : (withElements xml es).name = xml.name := rfl
  have hattr : (withElements xml es).attr = xml.attr := rfl
  have hversion : versionOf (withElements xml es) = versionOf xml := rfl
  rw [fileHead, fileHead, hgroup, hname, hattr, hversion]
  split
  · rcases versionOf xml with _ | version
    · rfl
    · rcases groupOf xml with _ | es' <;> rfl
  · rfl

theorem children_of_fileHead {xml : Document} {group : Group} (hchild : xml.child = some group)
    {version : Int} {es : List Element} (h : fileHead xml = some (version, es)) :
    es = group.children := by
  rw [fileHead] at h
  split at h
  · obtain ⟨v, -, h⟩ := Option.bind_eq_some_iff.mp h
    obtain ⟨es', hes', h⟩ := Option.bind_eq_some_iff.mp h
    obtain ⟨-, rfl⟩ := Prod.mk.inj (Option.some.inj h)
    rw [groupOf, hchild] at hes'
    simp only at hes'
    split at hes'
    · exact (Option.some.inj hes').symm
    · cases hes'
  · cases h

/-- **When the order of the elements does not matter.**  For a file whose elements have
pairwise distinct names, every permutation of them gives the same code and, for code 0,
the same profile, if and only if the head of the file is refused or its group is order
free. -/
theorem fpParseFp1_perm_iff {xml : Document} {group : Group} (hchild : xml.child = some group)
    (hnd : (group.children.map Element.name).Nodup) (fp : FujiProfile) :
    (∀ es', es'.Perm group.children → Option.Rel SameResult (fpParseFp1 (some xml) fp)
        (fpParseFp1 (some (withElements xml es')) fp)) ↔
      (fileHead xml ≠ none → OrderFree group.children) := by
  rcases hname : xml.name with _ | name
  -- a root without a name is not survived, whatever its elements
  · have hnone : ∀ {d : Document}, d.name = none → fpParseFp1 (some d) fp = none := by
      intro d hd
      rw [fpParseFp1, Option.bind_eq_bind, Option.bind_some, hd]
      rfl
    have hhead : fileHead xml = none := by rw [fileHead, hname, if_neg (by simp)]
    simp only [hhead, ne_eq, not_true_eq_false, false_imp_iff, iff_true]
    intro es' _
    rw [hnone hname, hnone (d := withElements xml es') hname]
    exact .none
  · obtain ⟨q, hq⟩ := fpParseFp1_eq hname fp
    rcases hhead : fileHead xml with _ | ⟨version, es⟩
    · simp only [ne_eq, not_true_eq_false, false_imp_iff, iff_true]
      intro es' hp
      have hname' : (withElements xml es').name = some name := hname
      obtain ⟨q', hq'⟩ := fpParseFp1_eq hname' fp
      rw [hq, hq', fileHead_withElements hchild hp, hhead]
      exact .some ⟨rfl, fun h => absurd h (by simp)⟩
    · obtain rfl := children_of_fileHead hchild hhead
      simp only [ne_eq, reduceCtorEq, not_false_eq_true, true_imp_iff]
      rw [← parseElements_perm_iff version hnd]
      refine forall_congr' fun es' => imp_congr_right fun hp => ?_
      have hname' : (withElements xml es').name = some name := hname
      obtain ⟨q', hq'⟩ := fpParseFp1_eq hname' fp
      rw [hq, hq', fileHead_withElements hchild hp, hhead]
      simp only [Option.map_some, Option.rel_some_some]

/-- A file with a half step of the highlight tone after the code of a fifth processor. -/
def toneFile : Document where
  name := some "ConversionProfile"
  attrs := [("application", "XRFC"), ("version", "1.12.0.0")]
  child := some ⟨"PropertyGroup", [⟨"IOPCode", "FF179502", false⟩, ⟨"HighlightTone", "0.5", false⟩]⟩

theorem fpParseFp1_perm_toneFile :
    (∀ es', es'.Perm [⟨"IOPCode", "FF179502", false⟩, ⟨"HighlightTone", "0.5", false⟩] →
      Option.Rel SameResult (fpParseFp1 (some toneFile) FujiProfile.zero)
        (fpParseFp1 (some (withElements toneFile es')) FujiProfile.zero)) ↔
      (fileHead toneFile ≠ none →
        OrderFree [⟨"IOPCode", "FF179502", false⟩, ⟨"HighlightTone", "0.5", false⟩]) :=
  have hchild : toneFile.child = some ⟨"PropertyGroup",
    [⟨"IOPCode", "FF179502", false⟩, ⟨"HighlightTone", "0.5", false⟩]⟩ := rfl
  fpParseFp1_perm_iff hchild (by decide) FujiProfile.zero

/-- With the tone in front of the code, the file is refused. -/
theorem fpParseFp1_toneFile_swapped :
    ¬ ∀ es', es'.Perm [⟨"IOPCode", "FF179502", false⟩, ⟨"HighlightTone", "0.5", false⟩] →
      Option.Rel SameResult (fpParseFp1 (some toneFile) FujiProfile.zero)
        (fpParseFp1 (some (withElements toneFile es')) FujiProfile.zero) := by
  intro h
  have hsame := h _ (List.Perm.swap _ _ [])
  have h1 : (fpParseFp1 (some toneFile) FujiProfile.zero).map Prod.fst = some 0 := by
    decide +kernel
  have h2 : (fpParseFp1 (some (withElements toneFile [⟨"HighlightTone", "0.5", false⟩,
      ⟨"IOPCode", "FF179502", false⟩])) FujiProfile.zero).map Prod.fst = some (-1) := by
    decide +kernel
  obtain ⟨r, hr, hr0⟩ := Option.map_eq_some_iff.mp h1
  obtain ⟨r', hr', hr1⟩ := Option.map_eq_some_iff.mp h2
  rw [hr, hr', Option.rel_some_some] at hsame
  have := hsame.1
  rw [hr0, hr1] at this
  exact absurd this (by decide)

end Xml

end Fuji
