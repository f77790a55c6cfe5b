/-
Texts as they are written in an XML file, and what `ezxml_decode` makes of them.

`Escaped t raw txt` says that `raw` is a way to write `txt`: characters stand for themselves,
`\r\n`, or `\r` in front of another character, for the end of a line, and any character may be
written as an entity or by its number.

* `decodeLoop_escaped`, `ezxmlDecode_escaped` — whatever way is taken, the text is recovered,
  and nothing behind it is touched.
* `ezxmlDecode_cdata` — in a CDATA section every character stands for itself.
* `decodeLoop_ok` — a text is decoded when its references stand for bytes, whatever else it holds.
-/
import LibFuji.Ezxml

namespace Fuji

namespace Ezxml

/-! ### Numbers -/

/-- The value of digits in a base. -/
def digitsVal (base : ℕ) (ds : CStr) : ℕ :=
  ds.foldl (fun acc c => acc * base + (digitVal c).getD 0) 0

theorem digitVal_lt {b : ℕ} {c : Char} (h : isDigitOf b c = true) : ∃ d, digitVal c = some d := by
  rw [isDigitOf, Option.any_eq_true] at h
  obtain ⟨d, hd, -⟩ := h
  exact ⟨d, hd⟩

/-- A digit is no blank and no sign. -/
theorem isDigitOf_ne {b : ℕ} {c : Char} (h : isDigitOf b c = true) :
    isSpace c = false ∧ c ≠ '-' ∧ c ≠ '+' := by
  obtain ⟨d, hd⟩ := digitVal_lt h
  refine ⟨?_, ?_, ?_⟩
  · by_contra hspace
    simp only [isSpace, Bool.decide_or, Bool.not_eq_false, Bool.or_eq_true, decide_eq_true_eq,
      Bool.decide_and, Bool.and_eq_true] at hspace
    simp only [digitVal, Char.le_def, UInt32.le_iff_toNat_le] at hd
    have h0 : ('0' : Char).val.toNat = 48 := rfl
    have hA : ('A' : Char).val.toNat = 65 := rfl
    have ha : ('a' : Char).val.toNat = 97 := rfl
    have hc : c.val.toNat = c.toNat := rfl
    rw [if_neg (by omega), if_neg (by omega), if_neg (by omega)] at hd
    cases hd
  · rintro rfl
    revert hd
    decide +revert
  · rintro rfl
    revert hd
    decide +revert

theorem isDigitOf_semicolon (b : ℕ) : isDigitOf b ';' = false := rfl

theorem isDigitOf_x {b : ℕ} (hb : b ≤ 16) {c : Char} (h : isDigitOf b c = true) :
    c ≠ 'x' ∧ c ≠ 'X' := by
  constructor
  all_goals
    rintro rfl
    have hd : (33 : ℕ) < b := of_decide_eq_true h
    omega

/-- The number of a reference is read up to its semicolon. -/
theorem strtol_digits {base : ℕ} (hbase : base = 10 ∨ base = 16) {ds rest : CStr} (hne : ds ≠ [])
    (hds : ∀ c ∈ ds, isDigitOf base c = true) (hbound : digitsVal base ds < 2 ^ 63) :
    strtol (ds ++ ';' :: rest) base = ((digitsVal base ds : Int), ';' :: rest) := by
  obtain ⟨d, ds', rfl⟩ := List.exists_cons_of_ne_nil hne
  obtain ⟨hspace, hminus, hplus⟩ := isDigitOf_ne (hds d (List.mem_cons_self ..))
  have hdrop : (d :: ds' ++ ';' :: rest).dropWhile isSpace = d :: (ds' ++ ';' :: rest) := by
    rw [List.cons_append, List.dropWhile_cons_of_neg (by simp [hspace])]
  have hsign : takeSign (d :: (ds' ++ ';' :: rest)) = (false, d :: (ds' ++ ';' :: rest)) := by
    rw [takeSign, if_neg hminus, if_neg hplus]
  -- no digit is an x, so that there is no prefix
  have htake : takeBase base (d :: (ds' ++ ';' :: rest)) = (base, d :: (ds' ++ ';' :: rest)) := by
    have hzero : base ≠ 0 := by omega
    rcases ds' with _ | ⟨x, ds'⟩
    · rcases rest with _ | ⟨y, rest⟩
      · simp [takeBase, hzero]
      · simp [takeBase, hzero]
    · have hx := isDigitOf_x (by omega) (hds x (by simp))
      rcases ds' with _ | ⟨y, ds'⟩
      · simp [takeBase, hzero, hx.1, hx.2]
      · simp [takeBase, hzero, hx.1, hx.2]
  have hall : (d :: (ds' ++ ';' :: rest)).takeWhile (isDigitOf base) = d :: ds' := by
    rw [← List.cons_append, List.takeWhile_append_of_pos hds,
      List.takeWhile_cons_of_neg (by simp [isDigitOf_semicolon]), List.append_nil]
  have hbehind : (d :: (ds' ++ ';' :: rest)).dropWhile (isDigitOf base) = ';' :: rest := by
    rw [← List.cons_append, List.dropWhile_append_of_pos hds,
      List.dropWhile_cons_of_neg (by simp [isDigitOf_semicolon])]
  rw [strtol, hdrop, hsign]
  simp only [htake, hall, hbehind]
  rw [if_neg (by simp), if_neg (by simp)]
  have hmin : min (2 ^ 63 - 1) (digitsVal base (d :: ds') : Int) = digitsVal base (d :: ds') := by
    omega
  exact Prod.ext hmin rfl

/-- The digits of a character reference, and its number. -/
inductive RefDigits : CStr → ℕ → Prop
  | decimal {ds : CStr} (hne : ds ≠ []) (hds : ∀ c ∈ ds, isDigitOf 10 c = true) :
      RefDigits ds (digitsVal 10 ds)
  | hex {ds : CStr} (hne : ds ≠ []) (hds : ∀ c ∈ ds, isDigitOf 16 c = true) :
      RefDigits ('x' :: ds) (digitsVal 16 ds)

theorem charRef_digits {ds rest : CStr} {n : ℕ} (h : RefDigits ds n) (hpos : n ≠ 0)
    (hbound : n < 2 ^ 63) : charRef (ds ++ ';' :: rest) = some ((n : Int), rest) := by
  cases h with
  | decimal hne hds =>
    obtain ⟨d, ds', rfl⟩ := List.exists_cons_of_ne_nil hne
    have hx : d ≠ 'x' := (isDigitOf_x (by omega) (hds d (by simp))).1
    rw [charRef, List.cons_append, List.head?_cons, if_neg (by simp [hx]), ← List.cons_append,
      strtol_digits (.inl rfl) hne hds hbound]
    simp [hpos]
  | hex hne hds =>
    rw [charRef, List.cons_append, List.head?_cons, if_pos rfl, List.tail_cons,
      strtol_digits (.inr rfl) hne hds hbound]
    simp [hpos]

/-- A character as UTF-8. -/
def charBytes (n : ℕ) : CStr := (utf8Bytes n).map Char.ofNat

theorem refBytes_eq {n : ℕ} (hpos : n ≠ 0) (hbound : n < 2 ^ 41) :
    refBytes n = .ok (charBytes n) := by
  rw [refBytes, charBytes, utf8Bytes]
  by_cases hascii : n < 0x80
  · rw [if_pos (by omega), if_neg (by omega), if_pos hascii]
    have hmod : ((n : Int) % 256).toNat = n := by omega
    rw [hmod, List.map_singleton]
  · have hsize : n.size ≤ 41 := Nat.size_le.mpr hbound
    rw [if_neg (by omega), if_neg hascii, Int.toNat_natCast]
    simp only
    rw [if_neg (by omega), List.map_cons, List.map_map]
    rfl

/-! ### Ends of lines -/

theorem normalize_cons {c : Char} (hc : c ≠ '\r') (s : CStr) :
    normalize (c :: s) = c :: normalize s := by
  rw [normalize]
  · intro s' h
    exact absurd h hc
  · exact hc

theorem normalize_append {a : CStr} (ha : '\r' ∉ a) (s : CStr) :
    normalize (a ++ s) = a ++ normalize s := by
  induction a with
  | nil => rfl
  | cons c a ih =>
    rw [List.mem_cons, not_or] at ha
    rw [List.cons_append, normalize_cons (Ne.symm ha.1), ih ha.2, List.cons_append]

theorem length_normalize_le (s : CStr) : (normalize s).length ≤ s.length := by
  fun_induction normalize s with
  | case1 s ih => simp only [List.length_cons]; omega
  | case2 s _ ih => simpa using ih
  | case3 c s _ _ ih => simpa using ih
  | case4 => exact le_rfl

/-! ### Ways to write a text -/

/-- A blank in an attribute is read as a space. -/
def shown (t c : Char) : Char := if t = ' ' ∧ isSpace c then ' ' else c

/-- The entities and what they stand for. -/
def entities : List (CStr × Char) :=
  [(['l', 't', ';'], '<'), (['g', 't', ';'], '>'), (['q', 'u', 'o', 't', ';'], '"'),
    (['a', 'p', 'o', 's', ';'], '\''), (['a', 'm', 'p', ';'], '&')]

/-- `raw` is a way to write `txt`. -/
inductive Escaped (t : Char) : CStr → CStr → Prop
  | nil : Escaped t [] []
  | char {c : Char} {raw txt : CStr} (hamp : c ≠ '&') (hcr : c ≠ '\r') (h : Escaped t raw txt) :
      Escaped t (c :: raw) (shown t c :: txt)
  | newline {raw txt : CStr} (h : Escaped t raw txt) :
      Escaped t ('\r' :: '\n' :: raw) (shown t '\n' :: txt)
  | bare {c : Char} {raw txt : CStr} (hc : c ≠ '\n') (h : Escaped t (c :: raw) txt) :
    Escaped t ('\r' :: c :: raw) (shown t '\n' :: txt)
  | entity {e : CStr × Char} {raw txt : CStr} (he : e ∈ entities) (h : Escaped t raw txt) :
      Escaped t ('&' :: e.1 ++ raw) (e.2 :: txt)
  | number {ds : CStr} {n : ℕ} {raw txt : CStr} (hds : RefDigits ds n) (hpos : n ≠ 0)
      (hbound : n < 2 ^ 41) (h : Escaped t raw txt) :
      Escaped t ('&' :: '#' :: ds ++ ';' :: raw) (charBytes n ++ txt)

variable {t : Char} {raw txt : CStr}

/-- A text without anything to escape stands for itself. -/
theorem Escaped.of_plain (h : ∀ c ∈ raw, c ≠ '&' ∧ c ≠ '\r' ∧ shown t c = c) :
    Escaped t raw raw := by
  induction raw with
  | nil => exact .nil
  | cons c raw ih =>
    obtain ⟨hamp, hcr, hshown⟩ := h c (List.mem_cons_self ..)
    have hchar := Escaped.char hamp hcr (ih fun d hd => h d (List.mem_cons_of_mem c hd))
    rwa [hshown] at hchar

theorem RefDigits.not_cr {ds : CStr} {n : ℕ} (h : RefDigits ds n) : '\r' ∉ ds := by
  have hdigit {b : ℕ} : isDigitOf b '\r' ≠ true := by
    intro hcr
    exact absurd (isDigitOf_ne hcr).1 (by decide)
  cases h with
  | decimal _ hds => exact fun hmem => hdigit (hds _ hmem)
  | hex _ hds =>
    rw [List.mem_cons, not_or]
    exact ⟨by decide, fun hmem => hdigit (hds _ hmem)⟩

/-- A text that is written so does not end in the middle of the end of a line. -/
theorem Escaped.getLast_ne (h : Escaped t raw txt) : raw.getLast? ≠ some '\r' := by
  induction h with
  | nil => simp
  | char _ hcr _ ih =>
    rw [List.getLast?_cons]
    rcases hl : List.getLast? _ with _ | d
    · simpa using hcr
    · simpa [hl] using ih
  | newline _ ih =>
    rw [List.getLast?_cons, List.getLast?_cons]
    rcases hl : List.getLast? _ with _ | d
    · simp
    · simpa [hl] using ih
  | bare _ _ ih =>
    rw [List.getLast?_cons_cons]
    exact ih
  | @entity e raw txt he _ ih =>
    have hlast : e.1.getLast? = some ';' := by
      fin_cases he <;> rfl
    rw [List.getLast?_append]
    rcases hl : raw.getLast? with _ | d
    · rw [List.getLast?_cons, hlast]
      simp
    · simpa [hl] using ih
  | number _ _ _ _ ih =>
    rw [List.getLast?_append, List.getLast?_cons]
    rcases hl : List.getLast? _ with _ | d
    · simp
    · simpa [hl] using ih

theorem Escaped.runsOn (h : Escaped t raw txt) : runsOn raw = false := by
  rw [Ezxml.runsOn, decide_eq_false_iff_not]
  exact fun hends => h.getLast_ne hends.1

/-! ### Decoding -/

/-- An entity is replaced by a reference by number. -/
theorem exists_find_entity {e : CStr × Char} (he : e ∈ entities) (rest : CStr) :
    ∃ p ds n, ent.find? (·.1 <+: e.1 ++ rest) = some p ∧
      ((e.1 ++ rest).dropWhile (· ≠ ';')).tail = rest ∧ p.2 = '&' :: '#' :: ds ++ [';'] ∧
      RefDigits ds n ∧ n ≠ 0 ∧ n < 2 ^ 41 ∧ charBytes n = [e.2] := by
  have hdecimal (a b : Char) (ha : isDigitOf 10 a = true) (hb : isDigitOf 10 b = true) :
      RefDigits [a, b] (digitsVal 10 [a, b]) :=
    .decimal (by simp) (by simp [ha, hb])
  fin_cases he
  · exact ⟨_, _, _, rfl, rfl, rfl, hdecimal '6' '0' rfl rfl, by decide, by decide, by decide⟩
  · exact ⟨_, _, _, rfl, rfl, rfl, hdecimal '6' '2' rfl rfl, by decide, by decide, by decide⟩
  · exact ⟨_, _, _, rfl, rfl, rfl, hdecimal '3' '4' rfl rfl, by decide, by decide, by decide⟩
  · exact ⟨_, _, _, rfl, rfl, rfl, hdecimal '3' '9' rfl rfl, by decide, by decide, by decide⟩
  · exact ⟨_, _, _, rfl, rfl, rfl, hdecimal '3' '8' rfl rfl, by decide, by decide, by decide⟩

theorem decodeLoop_char {c : Char} (hc : c ≠ '&') (fuel : ℕ) (s : CStr) :
    decodeLoop t (fuel + 1) (c :: s) = (decodeLoop t fuel s).map (shown t c :: ·) := by
  rw [decodeLoop, if_neg (by simp [hc]), if_neg (by simp [hc]), shown]
  split
  · rfl
  · rfl

theorem decodeLoop_number {ds : CStr} {n : ℕ} (ht : t ≠ 'c') (hds : RefDigits ds n) (hpos : n ≠ 0)
    (hbound : n < 2 ^ 41) (fuel : ℕ) (s : CStr) :
    decodeLoop t (fuel + 1) ('&' :: '#' :: ds ++ ';' :: s)
      = (decodeLoop t fuel s).map (charBytes n ++ ·) := by
  have href : charRef (ds ++ ';' :: s) = some ((n : Int), s) := charRef_digits hds hpos (by omega)
  rw [List.cons_append, List.cons_append, decodeLoop,
    if_pos ⟨ht, rfl, rfl⟩, List.tail_cons, href]
  simp only [refBytes_eq hpos hbound]
  rfl

theorem decodeLoop_entity {e : CStr × Char} (ht : t ≠ 'c') (he : e ∈ entities) (fuel : ℕ)
    (s : CStr) :
    decodeLoop t (fuel + 2) ('&' :: e.1 ++ s) = (decodeLoop t fuel s).map (e.2 :: ·) := by
  obtain ⟨p, ds, n, hfind, hrest, hp, hds, hpos, hbound, hbytes⟩ := exists_find_entity he s
  have hhash : ¬ (e.1 ++ s).head? = some '#' := by
    fin_cases he <;> simp
  rw [List.cons_append, decodeLoop, if_neg fun h => hhash h.2.2, if_pos ⟨ht, rfl⟩, hfind]
  simp only
  rw [hrest, hp, List.append_assoc, List.singleton_append,
    decodeLoop_number ht hds hpos hbound, hbytes]
  rfl

/-- **A text is recovered** from every way to write it. -/
theorem decodeLoop_escaped (ht : t ≠ 'c') (h : Escaped t raw txt) {fuel : ℕ}
    (hfuel : 2 * (normalize raw).length ≤ fuel) : decodeLoop t fuel (normalize raw) = .ok txt := by
  induction h generalizing fuel with
  | nil =>
    rcases fuel with _ | fuel
    · rfl
    · rfl
  | @char c raw txt hamp hcr _ ih =>
    rw [normalize_cons hcr] at hfuel ⊢
    rw [List.length_cons] at hfuel
    obtain ⟨fuel, rfl⟩ : ∃ f, fuel = f + 1 := ⟨fuel - 1, by omega⟩
    rw [decodeLoop_char hamp, ih (by omega)]
    rfl
  | @newline raw txt _ ih =>
    have hnorm : normalize ('\r' :: '\n' :: raw) = '\n' :: normalize raw := by rw [normalize]
    rw [hnorm, List.length_cons] at hfuel
    rw [hnorm]
    obtain ⟨fuel, rfl⟩ : ∃ f, fuel = f + 1 := ⟨fuel - 1, by omega⟩
    rw [decodeLoop_char (by decide), ih (by omega)]
    rfl
  | @bare c raw txt hc _ ih =>
    have hnorm : normalize ('\r' :: c :: raw) = '\n' :: normalize (c :: raw) := by
      rw [normalize]
      rintro s ⟨⟩
      exact hc rfl
    rw [hnorm, List.length_cons] at hfuel
    rw [hnorm]
    obtain ⟨fuel, rfl⟩ : ∃ f, fuel = f + 1 := ⟨fuel - 1, by omega⟩
    rw [decodeLoop_char (by decide), ih (by omega)]
    rfl
  | @entity e raw txt he _ ih =>
    have hcr : '\r' ∉ '&' :: e.1 := by fin_cases he <;> decide
    rw [normalize_append hcr] at hfuel ⊢
    rw [List.length_append, List.length_cons] at hfuel
    obtain ⟨fuel, rfl⟩ : ∃ f, fuel = f + 2 := ⟨fuel - 2, by omega⟩
    rw [decodeLoop_entity ht he, ih (by omega)]
    rfl
  | @number ds n raw txt hds hpos hbound _ ih =>
    have hcr : '\r' ∉ '&' :: '#' :: ds ++ [';'] := by
      simp only [List.cons_append, List.mem_cons, List.mem_append, List.not_mem_nil, or_false,
        not_or]
      exact ⟨by decide, by decide, hds.not_cr, by decide⟩
    have hraw : '&' :: '#' :: ds ++ ';' :: raw = ('&' :: '#' :: ds ++ [';']) ++ raw := by simp
    rw [hraw, normalize_append hcr, List.length_append] at hfuel
    rw [hraw, normalize_append hcr, List.append_assoc, List.singleton_append]
    obtain ⟨fuel, rfl⟩ : ∃ f, fuel = f + 1 := ⟨fuel - 1, by simp at hfuel; omega⟩
    rw [decodeLoop_number ht hds hpos hbound, ih (by simp at hfuel; omega)]
    rfl

theorem ezxmlDecode_escaped (ht : t ≠ 'c') (h : Escaped t raw txt) (rest : CStr) :
    ezxmlDecode raw t rest = .ok (txt, rest) := by
  rw [ezxmlDecode, normalizeBehind, if_pos h.runsOn]
  show (decodeLoop t _ _ >>= fun text => .ok (text, rest)) = _
  rw [decodeLoop_escaped ht h (by omega)]
  rfl

/-- In a CDATA section every character stands for itself. -/
theorem decodeLoop_cdata (fuel : ℕ) (s : CStr) : decodeLoop 'c' fuel s = .ok s := by
  induction fuel generalizing s with
  | zero => rfl
  | succ fuel ih =>
    rcases s with _ | ⟨c, s⟩
    · rfl
    · rw [decodeLoop, if_neg (by simp), if_neg (by simp), if_neg (by simp), ih]
      rfl

theorem ezxmlDecode_cdata {s : CStr} (hs : runsOn s = false) (rest : CStr) :
    ezxmlDecode s 'c' rest = .ok (normalize s, rest) := by
  rw [ezxmlDecode, normalizeBehind, if_pos hs]
  show (decodeLoop 'c' _ _ >>= fun text => .ok (text, rest)) = _
  rw [decodeLoop_cdata]
  rfl

/-! ### Texts that can be decoded -/

/-- Every character reference of a text stands for bytes. -/
def References (s : CStr) : Prop :=
  ∀ ref, '&' :: '#' :: ref <:+ s → ∀ n rest, charRef ref = some (n, rest) →
    ∃ bytes, refBytes n = .ok bytes

theorem References.suffix {s s' : CStr} (h : References s) (hs : s' <:+ s) : References s' :=
  fun ref href => h ref (href.trans hs)

theorem strtol_suffix (s : CStr) (base : ℕ) : (strtol s base).2 <:+ s := by
  have hsign (cs : CStr) : (takeSign cs).2 <:+ cs := by
    rcases cs with _ | ⟨c, cs⟩
    · exact List.suffix_refl _
    · rw [takeSign]
      split_ifs
      · exact List.suffix_cons c cs
      · exact List.suffix_cons c cs
      · exact List.suffix_refl _
  have hbase (cs : CStr) : (takeBase base cs).2 <:+ cs := by
    rw [takeBase.eq_def]
    split
    · rename_i z x d cs
      split_ifs
      · exact (List.suffix_cons x (d :: cs)).trans (List.suffix_cons z _)
      all_goals exact List.suffix_refl _
    · exact List.suffix_refl _
  rw [strtol]
  simp only
  split
  · exact List.suffix_refl s
  · exact (List.dropWhile_suffix _).trans <| (hbase _).trans <| (hsign _).trans <|
      List.dropWhile_suffix isSpace

/-- What stands behind a character reference. -/
theorem charRef_suffix {s rest : CStr} {n : Int} (h : charRef s = some (n, rest)) : rest <:+ s := by
  have hread : (if s.head? = some 'x' then strtol s.tail 16 else strtol s 10).2 <:+ s := by
    split
    · exact (strtol_suffix _ _).trans (List.tail_suffix s)
    · exact strtol_suffix s 10
  rw [charRef] at h
  generalize (if s.head? = some 'x' then strtol s.tail 16 else strtol s 10) = r at h hread
  obtain ⟨c, r⟩ := r
  rcases r with _ | ⟨semicolon, r⟩
  · cases h
  · split at h
    · rename_i heq
      split at h
      · cases h
      · cases h
        cases heq
        exact (List.suffix_cons ';' rest).trans hread
    · cases h

/-- The replacement of an entity is a reference by number, and the only one in it. -/
theorem ent_number {p : CStr × CStr} (hp : p ∈ ent) : ∃ ds n, p.2 = '&' :: '#' :: ds ++ [';'] ∧
    '&' ∉ '#' :: ds ++ [';'] ∧ RefDigits ds n ∧ n ≠ 0 ∧ n < 2 ^ 41 := by
  have hdecimal (a b : Char) (ha : isDigitOf 10 a = true) (hb : isDigitOf 10 b = true) :
      RefDigits [a, b] (digitsVal 10 [a, b]) :=
    .decimal (by simp) (by simp [ha, hb])
  fin_cases hp
  · exact ⟨_, _, rfl, by decide, hdecimal '6' '0' rfl rfl, by decide, by decide⟩
  · exact ⟨_, _, rfl, by decide, hdecimal '6' '2' rfl rfl, by decide, by decide⟩
  · exact ⟨_, _, rfl, by decide, hdecimal '3' '4' rfl rfl, by decide, by decide⟩
  · exact ⟨_, _, rfl, by decide, hdecimal '3' '9' rfl rfl, by decide, by decide⟩
  · exact ⟨_, _, rfl, by decide, hdecimal '3' '8' rfl rfl, by decide, by decide⟩

theorem suffix_of_not_mem {c : Char} {a b s : CStr} (hc : c ∉ a) (h : c :: s <:+ a ++ b) :
    c :: s <:+ b := by
  induction a with
  | nil => exact h
  | cons d a ih =>
    rw [List.mem_cons, not_or] at hc
    rcases List.suffix_cons_iff.mp h with heq | hsuffix
    · exact absurd (List.cons.inj heq).1 hc.1
    · exact ih hc.2 hsuffix

theorem References.replace {p : CStr × CStr} (hp : p ∈ ent) {rest : CStr} (h : References rest) :
    References (p.2 ++ rest) := by
  obtain ⟨ds, n, hrepl, hamp, hds, hpos, hbound⟩ := ent_number hp
  intro ref href m rest' hread
  rw [hrepl, List.cons_append, List.cons_append] at href
  rcases List.suffix_cons_iff.mp href with heq | hsuffix
  · -- the replacement itself
    obtain rfl : ref = ds ++ ';' :: rest := by simpa using heq
    rw [charRef_digits hds hpos (by omega)] at hread
    cases hread
    exact ⟨_, refBytes_eq hpos hbound⟩
  · exact h ref (suffix_of_not_mem hamp hsuffix) m rest' hread

/-- **A text is decoded** when its references stand for bytes. -/
theorem decodeLoop_ok {s : CStr} (h : References s) (t : Char) (fuel : ℕ) :
    ∃ txt, decodeLoop t fuel s = .ok txt := by
  induction fuel generalizing s with
  | zero => exact ⟨s, rfl⟩
  | succ fuel ih =>
    rcases s with _ | ⟨c, s⟩
    · exact ⟨[], rfl⟩
    have htail : References s := h.suffix (List.suffix_cons c s)
    obtain ⟨txt, htxt⟩ := ih htail
    rw [decodeLoop]
    split
    · rename_i href
      obtain ⟨-, rfl, hhash⟩ := href
      split
      · rw [htxt]
        exact ⟨_, rfl⟩
      · rename_i n rest hread
        obtain ⟨s, rfl⟩ : ∃ s', s = '#' :: s' := by
          rcases s with _ | ⟨d, s⟩
          · cases hhash
          · cases hhash
            exact ⟨s, rfl⟩
        obtain ⟨bytes, hbytes⟩ := h s (List.suffix_refl _) n rest hread
        obtain ⟨txt', htxt'⟩ := ih (htail.suffix ((charRef_suffix hread).trans
          (List.suffix_cons '#' s)))
        rw [hbytes, htxt']
        exact ⟨_, rfl⟩
    · split
      · split
        · rename_i p hfind
          exact ih (References.replace (List.mem_of_find?_eq_some hfind)
            (htail.suffix ((List.tail_suffix _).trans (List.dropWhile_suffix _))))
        · rw [htxt]
          exact ⟨_, rfl⟩
      · split
        · rw [htxt]
          exact ⟨_, rfl⟩
        · rw [htxt]
          exact ⟨_, rfl⟩

end Ezxml

end Fuji
