/-
What `fp_parse_d185` accepts, and what it reads.

`Format bin k` is the documented shape of a blob, with an IOP string of at most `k`
hexadecimal digits, and `Reads` says that a profile holds exactly what a blob
spells.  Both loops of the decoder are summarised first (`iopLoop_eq`,
`propsLoop_of_admits`, `propsLoop_of_not_admits`), and `fpParseD185_eq_iff`
puts them together: the code accepts `Format bin 9`, one digit more than the eight
of a 32-bit code.
-/
import LibFuji.D185Format

namespace Fuji

open ByteCodec

namespace D185

/-! ### The format -/

/-- The value of an upper-case hexadecimal digit. -/
def hexVal (c : ℕ) : Option ℕ :=
  if 0x30 ≤ c ∧ c ≤ 0x39 then some (c - 0x30)
  else if 0x41 ≤ c ∧ c ≤ 0x46 then some (c - 0x41 + 10)
  else none

/-- The number a string of hexadecimal digits spells. -/
def spell (cs : List ℕ) : ℕ := Nat.ofDigits 16 (cs.map fun c => (hexVal c).getD 0).reverse

section Parts

variable (bin : List UInt8)

/-- The `n_props` field. -/
def nPropsOf : ℕ := (readLe bin 0 2).getD 0

/-- The `str_len` field. -/
def strLenOf : ℕ := (readLe bin 2 1).getD 0

/-- The `k`-th UTF-16 character of the IOP string. -/
def charAt (k : ℕ) : ℕ := (readLe bin (3 + 2 * k) 2).getD 0

/-- The IOP string: `str_len` characters, cut at the first NUL. -/
def iopChars : List ℕ := ((List.range (strLenOf bin)).map (charAt bin)).takeWhile (· ≠ 0)

/-- The IOP code the digits leave in 32 bits. -/
def iopCodeOf : UInt32 := UInt32.ofNat (spell (iopChars bin))

/-- The `i`-th property; 0 when it does not lie wholly inside the blob. -/
def wordAt (i : ℕ) : UInt32 := UInt32.ofNat ((readLe bin (0x201 + 4 * i) 4).getD 0)

/-- The d185 format with an IOP string of at most `k` digits. -/
structure Format (k : ℕ) : Prop where
  long : 0x200 ≤ bin.length
  count : nPropsOf bin ≤ 29
  digits : (iopChars bin).length ≤ k
  hex : ∀ c ∈ iopChars bin, (hexVal c).isSome
  words : ∀ (i : ℕ) (s : Slot), i < nPropsOf bin → layout[i]? = some s →
    s.Admits (iopCodeOf bin) (wordAt bin i)

/-- A profile holds the IOP code the digits spell, every member the part of its
word, and 0 in the members of the words that are absent. -/
structure Reads (q : FujiProfile) : Prop where
  iopCode : (q.word .iopCode).toNat = spell (iopChars bin)
  words : ∀ (i : ℕ) (s : Slot), layout[i]? = some s →
    ∀ w ∈ s.writes (if i < nPropsOf bin then wordAt bin i else 0), q.word w.1 = w.2

end Parts

/-! ### Each member belongs to one slot -/

/-- The index of the slot that carries a member, 29 if none does. -/
def slotIndex : FpField → ℕ
  | .shootingCondition => 0
  | .fileType => 1
  | .imageSize => 2
  | .imageQuality => 3
  | .exposureBias => 4
  | .dynamicRange => 5
  | .wideDRange => 6
  | .filmSimulation => 7
  | .grainEffect => 8
  | .grainEffectSize => 8
  | .chromeEffect => 9
  | .wbShootCond => 10
  | .whiteBalance => 11
  | .wbShiftR => 12
  | .wbShiftB => 13
  | .wbColorTemp => 14
  | .highlightTone => 15
  | .shadowTone => 16
  | .color => 17
  | .sharpness => 18
  | .noisReduction => 19
  | .lensModulationOpt => 20
  | .colorSpace => 21
  | .blackImageTone => 22
  | .colorChromeBlue => 24
  | .monochromaticColorRG => 25
  | .clarity => 26
  | _ => 29

theorem slotIndex_of_mem {i : ℕ} {s : Slot} (hs : layout[i]? = some s) {f : FpField}
    (hf : f ∈ s.fields) : slotIndex f = i := by
  have hi := lt_of_layout hs
  interval_cases i <;> cases hs <;> simp only [Slot.fields, List.mem_cons, List.not_mem_nil,
    or_false] at hf <;> first | (subst hf; rfl) | (rcases hf with rfl | rfl <;> rfl)

theorem mem_fields_of_mem_writes {s : Slot} {w : UInt32} {a : FpField × UInt32}
    (h : a ∈ s.writes w) : a.1 ∈ s.fields := by
  cases s <;> simp only [Slot.writes, Slot.fields, List.mem_cons, List.not_mem_nil, or_false]
    at h ⊢
  · exact h ▸ rfl
  · rcases h with rfl | rfl
    · exact .inl rfl
    · exact .inr rfl

theorem writes_functional {s : Slot} {w : UInt32} {f : FpField} {v v' : UInt32}
    (h : (f, v) ∈ s.writes w) (h' : (f, v') ∈ s.writes w) : v = v' := by
  cases s <;> simp only [Slot.writes, List.mem_cons, Prod.mk.injEq, List.not_mem_nil, or_false]
    at h h'
  · rw [h.2, h'.2]
  · rcases h with ⟨rfl, rfl⟩ | ⟨rfl, rfl⟩ <;> rcases h' with ⟨h1, rfl⟩ | ⟨h1, rfl⟩ <;>
      first | rfl | exact absurd h1 (by decide)

/-- The assignments that store the first `n` words. -/
def storedWords (word : ℕ → UInt32) (n : ℕ) : List (FpField × UInt32) :=
  (List.range n).flatMap fun i => (layout[i]?.map (Slot.writes (word i))).getD []

theorem storedWords_succ (word : ℕ → UInt32) {i : ℕ} {s : Slot} (hs : layout[i]? = some s) :
    storedWords word (i + 1) = storedWords word i ++ s.writes (word i) := by
  simp [storedWords, List.range_succ, hs]

theorem mem_storedWords {word : ℕ → UInt32} {n : ℕ} {a : FpField × UInt32} :
    a ∈ storedWords word n ↔
      ∃ i < n, ∃ s, layout[i]? = some s ∧ a ∈ s.writes (word i) := by
  rw [storedWords, List.mem_flatMap]
  refine exists_congr fun i => ?_
  rw [List.mem_range]
  refine and_congr_right fun _ => ?_
  cases layout[i]? <;> simp

theorem last_storedWords {word : ℕ → UInt32} {n i : ℕ} {s : Slot} (hi : i < n)
    (hs : layout[i]? = some s) {f : FpField} {v : UInt32} (h : (f, v) ∈ s.writes (word i)) :
    Assignments.last (storedWords word n) f = some v := by
  refine Assignments.last_of_agree (mem_storedWords.mpr ⟨i, hi, s, hs, h⟩) fun v' hv' => ?_
  obtain ⟨j, -, t, ht, hj⟩ := mem_storedWords.mp hv'
  obtain rfl : i = j := by
    rw [← slotIndex_of_mem hs (mem_fields_of_mem_writes h),
      slotIndex_of_mem ht (mem_fields_of_mem_writes hj)]
  obtain rfl : s = t := Option.some.inj (hs.symm.trans ht)
  exact writes_functional hj h

theorem last_storedWords_eq_none {word : ℕ → UInt32} {n : ℕ} {f : FpField}
    (hf : n ≤ slotIndex f) : Assignments.last (storedWords word n) f = none := by
  refine Assignments.last_eq_none_iff.mpr fun v hv => ?_
  obtain ⟨i, hi, s, hs, h⟩ := mem_storedWords.mp hv
  have : slotIndex f = i := slotIndex_of_mem hs (mem_fields_of_mem_writes h)
  omega

/-! ### The loop over the IOP string -/

theorem foldl_code (ds : List ℕ) (c : ℕ) :
    ds.foldl (fun (code : UInt32) d => code * 16 + UInt32.ofNat d) (UInt32.ofNat c)
      = UInt32.ofNat (ds.foldl (fun acc d => acc * 16 + d) c) := by
  induction ds generalizing c with
  | nil => rfl
  | cons d ds ih =>
    rw [List.foldl_cons, List.foldl_cons, ← ih, UInt32.ofNat_add, UInt32.ofNat_mul]
    rfl

/-- From character `i ≤ 9` on, the loop takes what is left of the string up to nine
digits in all. -/
theorem iopLoop_eq {bin : List UInt8} (hbin : 0x200 ≤ bin.length) :
    ∀ (n i : ℕ) (code : UInt32), i ≤ 9 →
      iopLoop bin n i (3 + 2 * i) code =
        let cs := ((List.range' i n).map (charAt bin)).takeWhile (· ≠ 0)
        some (if i + cs.length ≤ 9 ∧ ∀ c ∈ cs, (hexVal c).isSome then
          some ((cs.map fun c => (hexVal c).getD 0).foldl
            (fun code d => code * 16 + UInt32.ofNat d) code)
        else none) := by
  intro n
  induction n with
  | zero => intro i code hi; simp [iopLoop, hi]
  | succ n ih =>
    intro i code hi
    have hread : readLe bin (3 + 2 * i) 2 = some (charAt bin i) := by
      rw [charAt, readLe_isSome (by omega), Option.getD_some]
    rw [iopLoop, hread, List.range'_succ, List.map_cons]
    simp only [Option.bind_eq_bind, Option.bind_some]
    by_cases h0 : charAt bin i = 0
    -- the string ends at the first NUL
    · simp [h0, hi]
    · have hd : decide (charAt bin i ≠ 0) = true := decide_eq_true h0
      rw [if_neg h0, List.takeWhile_cons, hd, if_pos rfl]
      -- the tenth character is refused whatever it is
      by_cases h8 : i > 8
      · rw [if_pos h8]
        simp only [List.length_cons]
        rw [if_neg (by omega)]
      · have ih' := ih (i + 1)
        rw [show 3 + 2 * (i + 1) = 3 + 2 * i + 2 by ring] at ih'
        rw [if_neg h8]
        simp only [List.length_cons, List.mem_cons, forall_eq_or_imp, List.map_cons,
          List.foldl_cons]
        by_cases h1 : 0x30 ≤ charAt bin i ∧ charAt bin i ≤ 0x39
        · have hv : hexVal (charAt bin i) = some (charAt bin i - 0x30) := if_pos h1
          rw [if_pos h1, ih' _ (by omega), hv]
          simp [Nat.add_assoc, Nat.add_comm 1]
        · by_cases h2 : 0x41 ≤ charAt bin i ∧ charAt bin i ≤ 0x46
          · have hv : hexVal (charAt bin i) = some (charAt bin i - 0x41 + 10) := by
              rw [hexVal, if_neg h1, if_pos h2]
            rw [if_neg h1, if_pos h2, ih' _ (by omega), hv]
            simp [Nat.add_assoc, Nat.add_comm 1]
          · have hv : hexVal (charAt bin i) = none := by
              rw [hexVal, if_neg h1, if_neg h2]
            rw [if_neg h1, if_neg h2, hv]
            simp

/-- **The IOP string as a whole.** -/
theorem iopLoop_start {bin : List UInt8} (hbin : 0x200 ≤ bin.length) :
    iopLoop bin (strLenOf bin) 0 3 0 =
      some (if (iopChars bin).length ≤ 9 ∧ ∀ c ∈ iopChars bin, (hexVal c).isSome then
        some (iopCodeOf bin) else none) := by
  have h := iopLoop_eq hbin (strLenOf bin) 0 0 (by omega)
  rw [Nat.mul_zero, Nat.add_zero, ← List.range_eq_range'] at h
  rw [h]
  simp only [Nat.zero_add]
  rw [show (0 : UInt32) = UInt32.ofNat 0 from rfl, foldl_code, foldl_digits]
  rfl

/-! ### The loop over the properties -/

/-- The offset before property `i`: it stops at the first word that does not fit. -/
def OffsetInv (bin : List UInt8) (i of : ℕ) : Prop :=
  of = 0x201 + 4 * i ∨ bin.length < of + 4 ∧ of ≤ 0x201 + 4 * i

/-- One step of the loop reads `wordAt` and keeps the offset invariant. -/
theorem propsLoop_succ {bin : List UInt8} {n i of : ℕ} (hof : OffsetInv bin i of)
    (fp : FujiProfile) : ∃ of', OffsetInv bin (i + 1) of' ∧
      propsLoop bin (n + 1) i of fp =
        if (parseProp fp i (wordAt bin i)).1 ≠ 0 then
          some (-1, (parseProp fp i (wordAt bin i)).2)
        else propsLoop bin n (i + 1) of' (parseProp fp i (wordAt bin i)).2 := by
  rw [propsLoop]
  by_cases hlen : of + 4 > bin.length
  -- the word is cut off: the loop takes 0, and so does `wordAt`
  · have hw : wordAt bin i = 0 := by
      have hnone : readLe bin (0x201 + 4 * i) 4 = none := by
        rw [readLe, if_neg]
        rcases hof with rfl | hof <;> omega
      rw [wordAt, hnone]
      rfl
    refine ⟨of, .inr ⟨hlen, ?_⟩, ?_⟩
    · rcases hof with rfl | hof <;> omega
    · rw [if_pos hlen, hw]; rfl
  -- nothing has been cut off before, so the offset is that of the word
  · obtain rfl : of = 0x201 + 4 * i := hof.resolve_right fun h => hlen h.1
    have hr : readLe bin (0x201 + 4 * i) 4 = _ := readLe_isSome (by omega)
    refine ⟨0x201 + 4 * i + 4, .inl (by ring), ?_⟩
    rw [if_neg hlen, wordAt, hr]
    rfl

/-- A profile on which the words before `i` have been stored. -/
def storedUpTo (p : FujiProfile) (bin : List UInt8) (i : ℕ) : FujiProfile :=
  p.assign (storedWords (wordAt bin) i)

section Loop

variable {bin : List UInt8} {p : FujiProfile} {iop : UInt32}

theorem storedUpTo_iopCode (hiop : p.word .iopCode = iop) {i : ℕ} (hi : i ≤ 29) :
    (storedUpTo p bin i).word .iopCode = iop := by
  rw [storedUpTo, FujiProfile.assign_word, last_storedWords_eq_none (by simpa [slotIndex]),
    Option.getD_none, hiop]

theorem storedUpTo_fresh (hp : ∀ f, slotIndex f < 29 → p.word f = 0) {i : ℕ} {s : Slot}
    (hs : layout[i]? = some s) {f : FpField} (hf : f ∈ s.fields) :
    (storedUpTo p bin i).word f = 0 := by
  have hif := slotIndex_of_mem hs hf
  rw [storedUpTo, FujiProfile.assign_word, last_storedWords_eq_none hif.ge, Option.getD_none,
    hp f (hif ▸ lt_of_layout hs)]

/-- Storing an admitted word. -/
theorem parseProp_storedUpTo (hiop : p.word .iopCode = iop)
    (hp : ∀ f, slotIndex f < 29 → p.word f = 0) {i : ℕ} {s : Slot} (hs : layout[i]? = some s)
    (hadm : s.Admits iop (wordAt bin i)) :
    parseProp (storedUpTo p bin i) i (wordAt bin i) = (0, storedUpTo p bin (i + 1)) := by
  have hcode : (storedUpTo p bin i).word .iopCode = iop :=
    storedUpTo_iopCode hiop (lt_of_layout hs).le
  -- a word of 0 is admitted but not stored: the member must still be 0
  rw [parseProp_of_admits hs (fun f hf => storedUpTo_fresh hp hs hf) (hcode ▸ hadm), storedUpTo,
    storedUpTo, storedWords_succ _ hs, FujiProfile.assign_append]

/-- While every word is admitted, the loop stores one word after the other. -/
theorem propsLoop_of_admits (hiop : p.word .iopCode = iop)
    (hp : ∀ f, slotIndex f < 29 → p.word f = 0) : ∀ (n i of : ℕ), OffsetInv bin i of →
      i + n ≤ 29 →
      (∀ j s, i ≤ j → j < i + n → layout[j]? = some s → s.Admits iop (wordAt bin j)) →
      propsLoop bin n i of (storedUpTo p bin i) = some (0, storedUpTo p bin (i + n)) := by
  intro n
  induction n with
  | zero => intro i of _ _ _; rfl
  | succ n ih =>
    intro i of hof hn hadm
    obtain ⟨of', hof', hstep⟩ := propsLoop_succ (n := n) hof (storedUpTo p bin i)
    obtain ⟨s, hs⟩ := exists_slot (show i < 29 by omega)
    rw [hstep, parseProp_storedUpTo hiop hp hs (hadm i s le_rfl (by omega) hs)]
    simp only [ne_eq, not_true_eq_false, if_false]
    rw [ih (i + 1) of' hof' (by omega) fun j s hij hj => hadm j s (by omega) (by omega)]
    rw [show i + 1 + n = i + (n + 1) by ring]

/-- A word that is not admitted, or a thirtieth word, ends the loop with an error. -/
theorem propsLoop_of_not_admits (hiop : p.word .iopCode = iop)
    (hp : ∀ f, slotIndex f < 29 → p.word f = 0) : ∀ (n i of : ℕ), OffsetInv bin i of →
      i ≤ 29 →
      (29 < i + n ∨
        ∃ j s, i ≤ j ∧ j < i + n ∧ layout[j]? = some s ∧ ¬ s.Admits iop (wordAt bin j)) →
      ∃ q, propsLoop bin n i of (storedUpTo p bin i) = some (-1, q) := by
  intro n
  induction n with
  | zero =>
    intro i of _ hi h
    rcases h with h | ⟨j, s, hij, hj, -⟩ <;> omega
  | succ n ih =>
    intro i of hof hi h
    obtain ⟨of', hof', hstep⟩ := propsLoop_succ (n := n) hof (storedUpTo p bin i)
    rw [hstep]
    -- the index runs past the layout, or into a word that is refused
    rcases Nat.lt_or_ge i 29 with hlt | hge
    · obtain ⟨s, hs⟩ := exists_slot hlt
      by_cases hadm : s.Admits iop (wordAt bin i)
      -- the word that is refused comes later
      · rw [parseProp_storedUpTo hiop hp hs hadm]
        simp only [ne_eq, not_true_eq_false, if_false]
        refine ih (i + 1) of' hof' (by omega) (h.imp (by omega) ?_)
        rintro ⟨j, t, hij, hj, hjs, hbad⟩
        have hne : i ≠ j := by
          rintro rfl
          exact hbad (Option.some.inj (hs.symm.trans hjs) ▸ hadm)
        exact ⟨j, t, by omega, by omega, hjs, hbad⟩
      · have hcode : (storedUpTo p bin i).word .iopCode = iop := storedUpTo_iopCode hiop hi
        rw [parseProp_of_not_admits hs (hcode ▸ hadm), if_pos (by decide)]
        exact ⟨_, rfl⟩
    -- there is no thirtieth property
    · rw [parseProp_past hge]
      exact ⟨_, rfl⟩

end Loop

/-! ### The whole decoder -/

section Decode

variable {bin : List UInt8}

/-- The profile `fp_parse_d185` works on when its second loop starts. -/
def headProfile (iop : UInt32) : FujiProfile :=
  (FujiProfile.zero.set .structVer 0x10000).set .iopCode iop

@[simp] theorem headProfile_iopCode (iop : UInt32) : (headProfile iop).word .iopCode = iop :=
  FujiProfile.set_word_self ..

theorem headProfile_word {iop : UInt32} {f : FpField} (hv : f ≠ .structVer)
    (hc : f ≠ .iopCode) : (headProfile iop).word f = 0 := by
  rw [headProfile, FujiProfile.set_word_of_ne _ _ hc, FujiProfile.set_word_of_ne _ _ hv,
    FujiProfile.zero_word]

theorem headProfile_fresh (iop : UInt32) (f : FpField) (hf : slotIndex f < 29) :
    (headProfile iop).word f = 0 := by
  refine headProfile_word ?_ ?_ <;> rintro rfl <;> exact absurd hf (by decide)

/-- The profile the words of a blob spell. -/
def decoded (bin : List UInt8) : FujiProfile :=
  storedUpTo (headProfile (iopCodeOf bin)) bin (nPropsOf bin)

/-- Everything before the second loop. -/
theorem fpParseD185_of_long (hbin : 0x200 ≤ bin.length) (fp : FujiProfile) :
    fpParseD185 bin fp =
      if (iopChars bin).length ≤ 9 ∧ ∀ c ∈ iopChars bin, (hexVal c).isSome then
        propsLoop bin (nPropsOf bin) 0 0x201 (headProfile (iopCodeOf bin))
      else some (-1, FujiProfile.zero.set .structVer 0x10000) := by
  have h1 : readLe bin 0 2 = some (nPropsOf bin) := by
    rw [nPropsOf, readLe_isSome (by omega), Option.getD_some]
  have h2 : readLe bin 2 1 = some (strLenOf bin) := by
    rw [strLenOf, readLe_isSome (by omega), Option.getD_some]
  rw [fpParseD185, if_neg (by omega), h1, h2]
  simp only [Option.bind_eq_bind, Option.bind_some]
  rw [iopLoop_start hbin, Option.bind_some]
  by_cases hd : (iopChars bin).length ≤ 9 ∧ ∀ c ∈ iopChars bin, (hexVal c).isSome
  · rw [if_pos hd, if_pos hd]; rfl
  · rw [if_neg hd, if_neg hd]

theorem fpParseD185_of_format (h : Format bin 9) (fp : FujiProfile) :
    fpParseD185 bin fp = some (0, decoded bin) := by
  have hloop : propsLoop bin (nPropsOf bin) 0 0x201
      (storedUpTo (headProfile (iopCodeOf bin)) bin 0) = _ :=
    propsLoop_of_admits (headProfile_iopCode _) (headProfile_fresh _) (nPropsOf bin) 0 0x201
      (.inl rfl) (by simpa using h.count) fun j s _ hj hs => h.words j s (by omega) hs
  rw [fpParseD185_of_long h.long, if_pos ⟨h.digits, h.hex⟩]
  rw [Nat.zero_add] at hloop
  exact hloop

theorem fpParseD185_of_not_format (h : ¬ Format bin 9) (fp : FujiProfile) :
    ∃ q, fpParseD185 bin fp = some (-1, q) := by
  by_cases hbin : 0x200 ≤ bin.length
  · rw [fpParseD185_of_long hbin]
    by_cases hd : (iopChars bin).length ≤ 9 ∧ ∀ c ∈ iopChars bin, (hexVal c).isSome
    · rw [if_pos hd]
      refine propsLoop_of_not_admits (headProfile_iopCode (iopCodeOf bin))
        (headProfile_fresh _) (nPropsOf bin) 0 0x201 (.inl rfl) (by omega) ?_
      by_contra hno
      rw [not_or] at hno
      obtain ⟨hn, hw⟩ := hno
      refine h ⟨hbin, by omega, hd.1, hd.2, fun i s hi hs => ?_⟩
      by_contra hbad
      exact hw ⟨i, s, Nat.zero_le i, by omega, hs, hbad⟩
    · rw [if_neg hd]
      exact ⟨_, rfl⟩
  · rw [fpParseD185, if_pos (by omega)]
    exact ⟨_, rfl⟩

/-- **What the decoder accepts, and what it leaves.** -/
theorem fpParseD185_eq_iff {fp q : FujiProfile} :
    fpParseD185 bin fp = some (0, q) ↔ Format bin 9 ∧ q = decoded bin := by
  constructor
  · intro h
    by_cases hf : Format bin 9
    · rw [fpParseD185_of_format hf, Option.some_inj, Prod.mk.injEq] at h
      exact ⟨hf, h.2.symm⟩
    · obtain ⟨q', hq'⟩ := fpParseD185_of_not_format hf fp
      rw [hq'] at h
      simp at h
  · rintro ⟨hf, rfl⟩
    exact fpParseD185_of_format hf fp

/-- The decoder never reads outside the blob. -/
theorem fpParseD185_total (fp : FujiProfile) :
    ∃ r, fpParseD185 bin fp = some r ∧ (r.1 = 0 ∨ r.1 = -1) := by
  by_cases hf : Format bin 9
  · exact ⟨_, fpParseD185_of_format hf fp, .inl rfl⟩
  · obtain ⟨q, hq⟩ := fpParseD185_of_not_format hf fp
    exact ⟨_, hq, .inr rfl⟩

/-! ### The decoded profile -/

theorem decoded_iopCode (h : nPropsOf bin ≤ 29) :
    (decoded bin).word .iopCode = iopCodeOf bin :=
  storedUpTo_iopCode (headProfile_iopCode _) h

/-- The members of slot `i` hold the parts of word `i`, or 0 past the last word. -/
theorem decoded_word {i : ℕ} {s : Slot} (hs : layout[i]? = some s) {f : FpField} {v : UInt32}
    (h : (f, v) ∈ s.writes (if i < nPropsOf bin then wordAt bin i else 0)) :
    (decoded bin).word f = v := by
  rw [decoded, storedUpTo, FujiProfile.assign_word]
  have hf : slotIndex f = i := slotIndex_of_mem hs (mem_fields_of_mem_writes h)
  by_cases hi : i < nPropsOf bin
  · rw [if_pos hi] at h
    rw [last_storedWords hi hs h, Option.getD_some]
  · rw [if_neg hi] at h
    rw [last_storedWords_eq_none (by omega), Option.getD_none,
      headProfile_fresh _ f (hf ▸ lt_of_layout hs)]
    cases s <;> simp only [Slot.writes, List.mem_cons, Prod.mk.injEq, List.not_mem_nil,
      or_false] at h
    · exact h.2.symm
    · rcases h with ⟨-, rfl⟩ | ⟨-, rfl⟩ <;> rfl

/-- The members of no slot stay 0, but for the version and the IOP code. -/
theorem decoded_word_of_not_slot {f : FpField} (hn : nPropsOf bin ≤ 29) (hf : slotIndex f = 29)
    (hv : f ≠ .structVer) (hc : f ≠ .iopCode) : (decoded bin).word f = 0 := by
  rw [decoded, storedUpTo, FujiProfile.assign_word, last_storedWords_eq_none (hf ▸ hn),
    Option.getD_none, headProfile_word hv hc]

theorem iopCodeOf_toNat : (iopCodeOf bin).toNat = spell (iopChars bin) % 2 ^ 32 := rfl

theorem spell_lt {cs : List ℕ} (h : cs.length ≤ 8) : spell cs < 2 ^ 32 := by
  have hd : ∀ d ∈ (cs.map fun c => (hexVal c).getD 0).reverse, d < 16 := by
    intro d hd
    obtain ⟨c, -, rfl⟩ := List.mem_map.mp (List.mem_reverse.mp hd)
    rw [hexVal]
    split_ifs <;> simp only [Option.getD_some, Option.getD_none] <;> omega
  have hlt := Nat.ofDigits_lt_base_pow_length (b := 16) (by norm_num) hd
  rw [List.length_reverse, List.length_map] at hlt
  calc spell cs < 16 ^ cs.length := hlt
    _ ≤ 16 ^ 8 := Nat.pow_le_pow_right (by norm_num) h
    _ = 2 ^ 32 := by norm_num

/-- An accepted blob of at most eight digits is read as it is spelled. -/
theorem reads_decoded (h : Format bin 8) : Reads bin (decoded bin) where
  iopCode := by
    rw [decoded_iopCode h.count, iopCodeOf_toNat, Nat.mod_eq_of_lt (spell_lt h.digits)]
  words _ _ hs _ hw := decoded_word hs hw

theorem Format.mono {k l : ℕ} (hkl : k ≤ l) (h : Format bin k) : Format bin l :=
  ⟨h.long, h.count, h.digits.trans hkl, h.hex, h.words⟩

/-- **The decoder is exactly its format, up to a ninth digit.**  It takes just the
blobs of the documented shape and reads them as they are spelled, for every blob but
those whose IOP string has nine hexadecimal digits. -/
theorem fpParseD185_exact_iff (bin : List UInt8) (fp : FujiProfile) :
    (((∃ q, fpParseD185 bin fp = some (0, q)) ↔ Format bin 8) ∧
        ∀ q, fpParseD185 bin fp = some (0, q) → Reads bin q) ↔
      ¬ (Format bin 9 ∧ (iopChars bin).length = 9) := by
  simp only [fpParseD185_eq_iff, exists_and_left, exists_eq, and_true]
  constructor
  · rintro ⟨hacc, -⟩ ⟨h9, hlen⟩
    have := (hacc.mp h9).digits
    omega
  · intro hno
    have hshort : Format bin 9 → Format bin 8 := fun h9 => by
      have hne : (iopChars bin).length ≠ 9 := fun hlen => hno ⟨h9, hlen⟩
      have h9' := h9.digits
      exact ⟨h9.long, h9.count, by omega, h9.hex, h9.words⟩
    refine ⟨⟨hshort, Format.mono (by norm_num)⟩, ?_⟩
    rintro q ⟨h9, rfl⟩
    exact reads_decoded (hshort h9)

/-- A blob of 0x200 bytes with no properties and the IOP string `000000000`. -/
def nineDigits : List UInt8 :=
  leBytes 2 0 ++ leBytes 1 9 ++ (List.replicate 9 0x30).flatMap (leBytes 2)
    ++ List.replicate 491 0

theorem fpParseD185_nineDigits :
    ¬ (((∃ q, fpParseD185 nineDigits FujiProfile.zero = some (0, q)) ↔ Format nineDigits 8) ∧
        ∀ q, fpParseD185 nineDigits FujiProfile.zero = some (0, q) → Reads nineDigits q) := by
  rintro ⟨hacc, -⟩
  have hrun : ∃ q, fpParseD185 nineDigits FujiProfile.zero = some (0, q) := by
    have hrc : (fpParseD185 nineDigits FujiProfile.zero).map Prod.fst = some 0 := by
      decide +kernel
    obtain ⟨⟨rc, q⟩, hq, rfl⟩ := Option.map_eq_some_iff.mp hrc
    exact ⟨q, hq⟩
  exact absurd (hacc.mp hrun).digits (by decide +kernel)

end Decode

end D185

end Fuji
