/-
The d185 codec at the end of its buffers.

* `fpCreateD185_inside_iff` — the guard of the encoder asks for 0x274 bytes, of which it
  writes 0x275: it stays inside every buffer but one of exactly that length, and leaves that
  one just for the profiles that it takes;
* `fpParseD185_append_zeros` — the decoder takes the words behind the end of a blob for 0: a
  blob that is cut off at a word, or in front of the first one, is read like the same blob with
  zeros behind it;
* `fpParseD185Int_inside` — it reads nothing outside a blob, also with the 32-bit integers of
  the source in place of natural numbers.
-/
import LibFuji.D185Encode

namespace Fuji

open ByteCodec

namespace D185

/-! ### The end of the encoder's buffer -/

section Encode

variable {p : FujiProfile} {u : Uninit}

/-- The loop of the encoder writes all its words, or stops in front of one. -/
theorem packProps_cases (n i : ℕ) (bin : List UInt8) :
    ((packProps p u n i bin).rc = (packProps p u n i bin).written.length ∧
        (packProps p u n i bin).written.length = bin.length + 4 * n) ∨
      (packProps p u n i bin).written.length + 4 ≤ bin.length + 4 * n := by
  induction n generalizing i bin with
  | zero => exact .inl ⟨rfl, rfl⟩
  | succ n ih =>
    rw [packProps]
    by_cases hrc : (getProp p i (u.value i) (u.valueSize i)).1 ≠ 0
    · rw [if_pos hrc]
      right
      show bin.length + 4 ≤ bin.length + 4 * (n + 1)
      omega
    · rw [if_neg hrc]
      have hstep := ih (i + 1) (bin ++ leBytes 4 (getProp p i (u.value i) (u.valueSize i)).2.toNat)
      rw [List.length_append, leBytes_length] at hstep
      rcases hstep with ⟨hret, hlen⟩ | hlen
      · exact .inl ⟨hret, by omega⟩
      · exact .inr (by omega)

/-- Nothing is written behind the buffer, and a length that is returned does not exceed it. -/
structure StaysInside (len : ℕ) (c : Created) : Prop where
  written : c.written.length ≤ len
  returned : 0 ≤ c.rc → c.rc ≤ len

/-- **The encoder leaves its buffer just when that is one byte too short**, for every profile
that it takes. -/
theorem fpCreateD185_inside_iff (p : FujiProfile) (u : Uninit) (len : ℕ) :
    StaysInside len (fpCreateD185 p u len) ↔ ¬ (len = 0x274 ∧ Encodable p) := by
  by_cases hguard : 0x274 ≤ len
  · -- behind the guard nothing depends on the length
    have hrun : fpCreateD185 p u len = packProps p u 0x1d 0 (writeHead (p.word .iopCode)) :=
      if_neg (not_not.mpr hguard)
    have hlong : fpCreateD185 p u 0x275 = packProps p u 0x1d 0 (writeHead (p.word .iopCode)) :=
      if_neg (by decide)
    by_cases hfit : Encodable p
    · have hwritten := assemble_length (p.word .iopCode) (packedWords p u)
      rw [packedWords_length] at hwritten
      rw [hrun, ← hlong, fpCreateD185_of_fits le_rfl hfit]
      constructor
      · rintro ⟨hle, -⟩ ⟨hlen, -⟩
        have hle' : (assemble (p.word .iopCode) (packedWords p u)).length ≤ len := hle
        omega
      · intro hne
        have hlen : len ≠ 0x274 := fun hlen => hne ⟨hlen, hfit⟩
        refine ⟨?_, fun _ => ?_⟩
        · show (assemble (p.word .iopCode) (packedWords p u)).length ≤ len
          omega
        · show (0x275 : Int) ≤ len
          omega
    · -- a word is missing, and the code is an error
      have hrc := fpCreateD185_of_not_fits (u := u) le_rfl hfit
      rw [hlong] at hrc
      have hcases := packProps_cases (p := p) (u := u) 0x1d 0 (writeHead (p.word .iopCode))
      rw [writeHead_length] at hcases
      rw [hrun]
      refine iff_of_true ⟨?_, fun hret => by omega⟩ fun hbad => hfit hbad.2
      rcases hcases with ⟨hret, -⟩ | hlen
      · omega
      · omega
  · rw [fpCreateD185, if_pos hguard]
    refine iff_of_true ⟨Nat.zero_le _, fun hret => ?_⟩ fun hbad => hguard (by omega)
    exact absurd hret (by decide)

/-- The profile of all zeros goes to a buffer that passes the guard, and one byte beyond it. -/
theorem fpCreateD185_leaves_buffer :
    ¬ ∀ (p : FujiProfile) (u : Uninit) (len : ℕ), StaysInside len (fpCreateD185 p u len) := by
  intro hall
  have hwritten : (fpCreateD185 .zero ⟨fun _ => 0, fun _ => 0⟩ 0x274).written.length = 0x275 := by
    decide +kernel
  have hle := (hall .zero ⟨fun _ => 0, fun _ => 0⟩ 0x274).written
  omega

end Encode

/-! ### The end of a blob -/

/-- The loop of the decoder over given words. -/
def storeProps (word : ℕ → UInt32) : ℕ → ℕ → FujiProfile → Int × FujiProfile
  | 0, _, fp => (0, fp)
  | n + 1, i, fp =>
    if (parseProp fp i (word i)).1 ≠ 0 then (-1, (parseProp fp i (word i)).2)
    else storeProps word n (i + 1) (parseProp fp i (word i)).2

/-- Of a blob, the loop depends on the words only. -/
theorem propsLoop_eq {bin : List UInt8} (n i of : ℕ) (hof : OffsetInv bin i of)
    (fp : FujiProfile) : propsLoop bin n i of fp = some (storeProps (wordAt bin) n i fp) := by
  induction n generalizing i of fp with
  | zero => rfl
  | succ n ih =>
    obtain ⟨of', hof', hstep⟩ := propsLoop_succ (n := n) hof fp
    rw [hstep, storeProps]
    by_cases hrc : (parseProp fp i (wordAt bin i)).1 ≠ 0
    · rw [if_pos hrc, if_pos hrc]
    · rw [if_neg hrc, if_neg hrc]
      exact ih (i + 1) of' hof' _

/-- The decoder, from the fields of a blob. -/
theorem fpParseD185_eq {bin : List UInt8} (hbin : 0x200 ≤ bin.length) (fp : FujiProfile) :
    fpParseD185 bin fp = some
      (if (iopChars bin).length ≤ 9 ∧ ∀ c ∈ iopChars bin, (hexVal c).isSome then
        storeProps (wordAt bin) (nPropsOf bin) 0 (headProfile (iopCodeOf bin))
      else (-1, FujiProfile.zero.set .structVer 0x10000)) := by
  rw [fpParseD185_of_long hbin, propsLoop_eq _ _ _ (.inl rfl)]
  split_ifs <;> rfl

section Append

variable {bin : List UInt8} (k : ℕ)

theorem readLe_append {of n : ℕ} (h : of + n ≤ bin.length) (tail : List UInt8) :
    readLe (bin ++ tail) of n = readLe bin of n := by
  rw [readLe_isSome h, readLe_isSome (by rw [List.length_append]; omega),
    List.drop_append_of_le_length (by omega), List.take_append_of_le_length]
  rw [List.length_drop]
  omega

/-- Behind the end of a blob there are zeros, or nothing. -/
theorem readLe_zeros {of n : ℕ} (h : bin.length ≤ of) :
    (readLe (bin ++ List.replicate k 0) of n).getD 0 = 0 := by
  rw [readLe]
  split_ifs
  · have hzero : ∀ m, leNat (List.replicate m 0) = 0 := by
      intro m
      induction m with
      | zero => rfl
      | succ m ih =>
        rw [leNat, List.replicate_succ, List.map_cons, Nat.ofDigits_cons]
        rw [leNat] at ih
        rw [ih]
        rfl
    rw [Option.getD_some, List.drop_append, List.drop_eq_nil_of_le h, List.nil_append,
      List.drop_replicate, List.take_replicate]
    exact hzero _
  · rfl

/-- A blob that ends in front of its first word, or at a word. -/
def EndsAtWord (bin : List UInt8) : Prop :=
  bin.length = 0x200 ∨ 0x201 ≤ bin.length ∧ 4 ∣ bin.length - 0x201

theorem wordAt_append_zeros (hend : EndsAtWord bin) (i : ℕ) :
    wordAt (bin ++ List.replicate k 0) i = wordAt bin i := by
  rw [wordAt, wordAt]
  by_cases hin : 0x201 + 4 * i + 4 ≤ bin.length
  · rw [readLe_append hin]
  · -- the word begins behind the end
    have hbegin : bin.length ≤ 0x201 + 4 * i := by
      rcases hend with hlen | ⟨hlen, hdvd⟩ <;> omega
    rw [readLe_zeros k hbegin, readLe, if_neg hin]
    rfl

/-- The IOP string is looked at up to its tenth character. -/
theorem iopChars_append (hlen : 0x200 ≤ bin.length) (tail : List UInt8) :
    (iopChars (bin ++ tail)).take 10 = (iopChars bin).take 10 := by
  have hstr : strLenOf (bin ++ tail) = strLenOf bin := by
    rw [strLenOf, strLenOf, readLe_append (by omega)]
  simp only [iopChars, List.take_takeWhile, ← List.map_take, List.take_range, hstr]
  refine congrArg _ (List.map_congr_left fun i hi => ?_)
  have hlt : i < 10 := (List.mem_range.mp hi).trans_le (min_le_left _ _)
  rw [charAt, charAt, readLe_append (by omega)]

/-- **A blob that is cut off has zeros for the words that are missing**: with zeros behind it,
the decoder returns the same code and leaves the same profile. -/
theorem fpParseD185_append_zeros (hend : EndsAtWord bin) (fp : FujiProfile) :
    fpParseD185 (bin ++ List.replicate k 0) fp = fpParseD185 bin fp := by
  have hlen : 0x200 ≤ bin.length := by
    rcases hend with hlen | ⟨hlen, -⟩ <;> omega
  have hprops : nPropsOf (bin ++ List.replicate k 0) = nPropsOf bin := by
    rw [nPropsOf, nPropsOf, readLe_append (by omega)]
  have hword : wordAt (bin ++ List.replicate k 0) = wordAt bin :=
    funext (wordAt_append_zeros k hend)
  have hchars := iopChars_append hlen (List.replicate k 0)
  rw [fpParseD185_eq hlen, fpParseD185_eq (by rw [List.length_append]; omega), hprops, hword]
  -- ten characters or more are refused, whatever they are
  have hlength : (iopChars (bin ++ List.replicate k 0)).length ≤ 9 ↔ (iopChars bin).length ≤ 9 := by
    have htake := congrArg List.length hchars
    rw [List.length_take, List.length_take] at htake
    omega
  by_cases hshort : (iopChars bin).length ≤ 9
  · have hsame : iopChars (bin ++ List.replicate k 0) = iopChars bin := by
      have hshort' := hlength.mpr hshort
      rwa [List.take_of_length_le (by omega), List.take_of_length_le (by omega)] at hchars
    rw [hsame, iopCodeOf, iopCodeOf, hsame]
  · rw [if_neg fun hcond => hshort (hlength.mp hcond.1), if_neg fun hcond => hshort hcond.1]

/-- A blob of 601 bytes, which has 22 of its 29 words, and the 629 bytes with the others. -/
theorem fpParseD185_append_camera :
    (assemble 0xff179502 (List.replicate 22 0)).length = 601 ∧
      fpParseD185 (assemble 0xff179502 (List.replicate 22 0) ++ List.replicate 28 0) .zero
        = fpParseD185 (assemble 0xff179502 (List.replicate 22 0)) .zero := by
  have hlen := assemble_length 0xff179502 (List.replicate 22 0)
  rw [List.length_replicate] at hlen
  exact ⟨hlen, fpParseD185_append_zeros 28 (.inr (by rw [hlen]; decide)) .zero⟩

end Append

/-! ### The integers of the source -/

/-- The loop of the decoder over the properties, with its offset as an `int` and the length as
an `unsigned int`: the sum of the guard is compared as an unsigned number.  A sum that does not
fit an `int` is `none`, as a read outside the blob is. -/
def propsLoopInt (bin : List UInt8) : ℕ → ℕ → ℕ → FujiProfile → Option (Int × FujiProfile)
  | 0, _, _, fp => some (0, fp)
  | n + 1, i, of, fp => do
    let (value, of) ←
      if 2 ^ 31 ≤ of + 4 then none
      else if UInt32.ofNat (of + 4) > UInt32.ofNat bin.length then some (0, of)
      else (readLe bin of 4).map fun v => (UInt32.ofNat v, of + 4)
    let r := parseProp fp i value
    if r.1 ≠ 0 then some (-1, r.2) else propsLoopInt bin n (i + 1) of r.2

end D185

open D185

/-- `fp_parse_d185` with the integers of the source. -/
def fpParseD185Int (bin : List UInt8) (fp : FujiProfile) : Option (Int × FujiProfile) :=
  if UInt32.ofNat bin.length < 0x200 then some (-1, fp)
  else do
    let fp := FujiProfile.zero.set .structVer 0x10000
    let nProps ← readLe bin 0 2
    let strLen ← readLe bin 2 1
    match ← iopLoop bin strLen 0 3 0 with
    | none => some (-1, fp)
    | some iopCode => propsLoopInt bin nProps 0 0x201 (fp.set .iopCode iopCode)

namespace D185

section Integers

variable {bin : List UInt8}

/-- As long as the offset is small, the integers make no difference. -/
theorem propsLoopInt_eq (hlen : bin.length < 2 ^ 32) (n i of : ℕ) (hof : of + 4 * n < 2 ^ 31)
    (fp : FujiProfile) : propsLoopInt bin n i of fp = propsLoop bin n i of fp := by
  induction n generalizing i of fp with
  | zero => rfl
  | succ n ih =>
    have hguard : (UInt32.ofNat (of + 4) > UInt32.ofNat bin.length) = (of + 4 > bin.length) := by
      rw [gt_iff_lt, UInt32.lt_iff_toNat_lt, UInt32.toNat_ofNat_of_lt' hlen,
        UInt32.toNat_ofNat_of_lt' (show of + 4 < 2 ^ 32 by omega)]
    rw [propsLoopInt, propsLoop, if_neg (by omega)]
    simp only [hguard]
    by_cases hcut : of + 4 > bin.length
    · simp only [if_pos hcut, Option.bind_eq_bind, Option.bind_some]
      rw [ih (i + 1) of (by omega)]
    · rw [readLe_isSome (not_lt.mp hcut)]
      simp only [if_neg hcut, Option.bind_eq_bind, Option.map_some, Option.bind_some]
      rw [ih (i + 1) (of + 4) (by omega)]

/-- `n_props` has two bytes. -/
theorem nProps_lt {nProps : ℕ} (h : readLe bin 0 2 = some nProps) : nProps < 2 ^ 16 := by
  obtain ⟨-, rfl⟩ := readLe_eq_some.mp h
  refine (leNat_lt _).trans_le ?_
  rw [show (2 : ℕ) ^ 16 = 256 ^ 2 by norm_num]
  exact Nat.pow_le_pow_right (by norm_num) (List.length_take_le _ _)

theorem fpParseD185Int_eq (hlen : bin.length < 2 ^ 32) (fp : FujiProfile) :
    fpParseD185Int bin fp = fpParseD185 bin fp := by
  have hshort : (UInt32.ofNat bin.length < 0x200) = (bin.length < 0x200) := by
    rw [UInt32.lt_iff_toNat_lt, UInt32.toNat_ofNat_of_lt' hlen]
    rfl
  rw [fpParseD185Int, fpParseD185]
  simp only [hshort]
  by_cases hlong : bin.length < 0x200
  · rw [if_pos hlong, if_pos hlong]
  · rw [if_neg hlong, if_neg hlong]
    have hprops : readLe bin 0 2 = _ := readLe_isSome (by omega)
    have hlt := nProps_lt hprops
    rw [hprops]
    simp only [Option.bind_eq_bind, Option.bind_some]
    refine Option.bind_congr fun strLen _ => Option.bind_congr fun iopCode _ => ?_
    cases iopCode with
    | none => rfl
    | some iopCode => exact propsLoopInt_eq hlen _ 0 0x201 (by omega) _

/-- **The decoder finishes, and reads nothing outside the blob**, with any length that an
`unsigned int` holds and whatever the blob says of its parts. -/
theorem fpParseD185Int_inside (hlen : bin.length < 2 ^ 32) (fp : FujiProfile) :
    ∃ rc q, fpParseD185Int bin fp = some (rc, q) ∧ (rc = 0 ∨ rc = -1) := by
  rw [fpParseD185Int_eq hlen]
  obtain ⟨⟨rc, q⟩, hrun, hrc⟩ := fpParseD185_total fp
  exact ⟨rc, q, hrun, hrc⟩

/-- A blob of 512 bytes that claims to have 255 characters and 65535 properties. -/
theorem fpParseD185Int_inside_greedy :
    ∃ rc q, fpParseD185Int ([0xff, 0xff, 0xff] ++ List.replicate 509 0) .zero = some (rc, q) ∧
      (rc = 0 ∨ rc = -1) :=
  fpParseD185Int_inside (by rw [List.length_append, List.length_replicate]; decide) .zero

end Integers

end D185

end Fuji
