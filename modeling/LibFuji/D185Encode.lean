/-
What `fp_create_d185` writes.

The encoder succeeds exactly on the profiles that fit every slot, and then writes
`assemble iop ws`, the head for the IOP code and one word a slot:

* `fpCreateD185_of_fits`, `fpCreateD185_of_not_fits` — the encoder as a whole;
* `format_assemble`, `decoded_assemble` — how such a blob is read back.
-/
import LibFuji.D185Decode

namespace Fuji

open ByteCodec

namespace D185

/-! ### The IOP code as text -/

theorem hexChar_bounds {d : ℕ} (hd : d < 16) : 0 < hexChar d ∧ hexChar d < 0x47 := by
  rw [hexChar]
  split <;> omega

theorem hexVal_hexChar {d : ℕ} (hd : d < 16) : hexVal (hexChar d) = some d := by
  interval_cases d <;> rfl

theorem hexChar_hexVal {c d : ℕ} (h : hexVal c = some d) : hexChar d = c ∧ d < 16 := by
  rw [hexVal] at h
  split_ifs at h with h1 h2 <;> obtain rfl := Option.some.inj h <;>
    refine ⟨?_, by omega⟩ <;> rw [hexChar]
  · rw [if_pos (by omega)]; omega
  · rw [if_neg (by omega)]; omega

@[simp] theorem hex8_length (v : UInt32) : (hex8 v).length = 8 := by simp [hex8]

theorem exists_hexChar_of_mem_hex8 {v : UInt32} {c : ℕ} (h : c ∈ hex8 v) :
    ∃ d < 16, hexChar d = c := by
  obtain ⟨d, hd, rfl⟩ := List.mem_map.mp h
  exact ⟨d, leDigits_lt (by norm_num) _ _ d (List.mem_reverse.mp hd), rfl⟩

theorem hexVal_hex8 {v : UInt32} {c : ℕ} (h : c ∈ hex8 v) : (hexVal c).isSome := by
  obtain ⟨d, hd, rfl⟩ := exists_hexChar_of_mem_hex8 h
  rw [hexVal_hexChar hd]
  rfl

theorem spell_hex8 (v : UInt32) : spell (hex8 v) = v.toNat := by
  have hmap : (hex8 v).map (fun c => (hexVal c).getD 0) = (leDigits 16 8 v.toNat).reverse := by
    rw [hex8, List.map_map]
    refine (List.map_congr_left fun d hd => ?_).trans (List.map_id' _)
    rw [Function.comp_apply, hexVal_hexChar
      (leDigits_lt (by norm_num) _ _ d (List.mem_reverse.mp hd)), Option.getD_some]
  have hlt : v.toNat < 16 ^ 8 := v.toNat_lt
  rw [spell, hmap, List.reverse_reverse, ofDigits_leDigits, Nat.mod_eq_of_lt hlt]

/-- Eight hexadecimal digits are the text of the code they spell. -/
theorem hex8_spell {cs : List ℕ} (hlen : cs.length = 8) (hex : ∀ c ∈ cs, (hexVal c).isSome) :
    hex8 (UInt32.ofNat (spell cs)) = cs := by
  have hd : ∀ d ∈ (cs.map fun c => (hexVal c).getD 0).reverse, d < 16 := by
    intro d hd
    obtain ⟨c, hc, rfl⟩ := List.mem_map.mp (List.mem_reverse.mp hd)
    obtain ⟨d, hcd⟩ := Option.isSome_iff_exists.mp (hex c hc)
    rw [hcd, Option.getD_some]
    exact (hexChar_hexVal hcd).2
  have hdig := leDigits_ofDigits (by norm_num) hd
  rw [List.length_reverse, List.length_map, hlen] at hdig
  rw [hex8, UInt32.toNat_ofNat_of_lt' (spell_lt hlen.le), spell, hdig, List.reverse_reverse,
    List.map_map]
  refine (List.map_congr_left fun c hc => ?_).trans (List.map_id' cs)
  obtain ⟨d, hcd⟩ := Option.isSome_iff_exists.mp (hex c hc)
  rw [Function.comp_apply, hcd, Option.getD_some]
  exact (hexChar_hexVal hcd).1

/-! ### Blobs made of a head and 29 words -/

/-- The blob for an IOP code and the words of the slots. -/
def assemble (iop : UInt32) (ws : List UInt32) : List UInt8 :=
  writeHead iop ++ (ws.map UInt32.toNat).flatMap (leBytes 4)

theorem writeHead_eq (iop : UInt32) : writeHead iop =
    (leBytes 2 0x1d ++ leBytes 1 9) ++ (hex8 iop ++ [0]).flatMap (leBytes 2)
      ++ List.replicate 492 0 := by
  have hzero : (hex8 iop ++ [0]).flatMap (leBytes 2)
      = (hex8 iop).flatMap (leBytes 2) ++ leBytes 2 0 := by
    rw [List.flatMap_append, List.flatMap_singleton]
  have hlen : 0x201 - (leBytes 2 0x1d ++ leBytes 1 9 ++ (hex8 iop).flatMap (leBytes 2)
      ++ leBytes 2 0).length = 492 := by
    simp only [List.length_append, flatMap_leBytes_length, leBytes_length, hex8_length]
  rw [writeHead, hex8_length, hlen, hzero]
  simp only [List.append_assoc]

@[simp] theorem writeHead_length (iop : UInt32) : (writeHead iop).length = 0x201 := by
  rw [writeHead_eq]
  simp only [List.length_append, flatMap_leBytes_length, leBytes_length, hex8_length,
    List.length_cons, List.length_nil, List.length_replicate]

section Assemble

variable (iop : UInt32) (ws : List UInt32)

theorem assemble_length : (assemble iop ws).length = 0x201 + 4 * ws.length := by
  rw [assemble, List.length_append, writeHead_length, flatMap_leBytes_length, List.length_map]

theorem nPropsOf_assemble : nPropsOf (assemble iop ws) = 29 := by
  have h := readLe_mid [] (leBytes 2 0x1d) (leBytes 1 9 ++ ((hex8 iop ++ [0]).flatMap (leBytes 2)
    ++ List.replicate 492 0) ++ (ws.map UInt32.toNat).flatMap (leBytes 4))
  simp only [List.nil_append, List.length_nil, leBytes_length, leNat_leBytes] at h
  rw [nPropsOf, assemble, writeHead_eq]
  simp only [List.append_assoc] at h ⊢
  rw [h]
  rfl

theorem strLenOf_assemble : strLenOf (assemble iop ws) = 9 := by
  have h := readLe_mid (leBytes 2 0x1d) (leBytes 1 9) (((hex8 iop ++ [0]).flatMap (leBytes 2)
    ++ List.replicate 492 0) ++ (ws.map UInt32.toNat).flatMap (leBytes 4))
  simp only [leBytes_length, leNat_leBytes] at h
  rw [strLenOf, assemble, writeHead_eq]
  simp only [List.append_assoc] at h ⊢
  rw [h]
  rfl

theorem charAt_assemble {k c : ℕ} (h : (hex8 iop ++ [0])[k]? = some c) :
    charAt (assemble iop ws) k = c := by
  have hc : c < 256 ^ 2 := by
    rcases List.mem_append.mp (List.mem_of_getElem? h) with hc | hc
    · obtain ⟨d, hd, rfl⟩ := exists_hexChar_of_mem_hex8 hc
      have := (hexChar_bounds hd).2
      omega
    · rw [List.mem_singleton.mp hc]
      norm_num
  have hr := readLe_flatMap 2 (leBytes 2 0x1d ++ leBytes 1 9)
    (List.replicate 492 0 ++ (ws.map UInt32.toNat).flatMap (leBytes 4)) h
  simp only [List.length_append, leBytes_length] at hr
  rw [charAt, assemble, writeHead_eq]
  simp only [List.append_assoc] at hr ⊢
  rw [hr, Option.getD_some, Nat.mod_eq_of_lt hc]

theorem iopChars_assemble : iopChars (assemble iop ws) = hex8 iop := by
  have hmap : (List.range 9).map (charAt (assemble iop ws)) = hex8 iop ++ [0] := by
    refine List.ext_getElem? fun k => ?_
    rcases Nat.lt_or_ge k 9 with hk | hk
    · have hk' : k < (hex8 iop ++ [0]).length := by simpa using hk
      rw [List.getElem?_map, List.getElem?_range hk, Option.map_some,
        List.getElem?_eq_getElem hk', charAt_assemble iop ws (List.getElem?_eq_getElem hk')]
    · rw [List.getElem?_eq_none (by simpa using hk), List.getElem?_eq_none (by simpa using hk)]
  have hne : ∀ c ∈ hex8 iop, decide (c ≠ 0) = true := by
    intro c hc
    obtain ⟨d, hd, rfl⟩ := exists_hexChar_of_mem_hex8 hc
    exact decide_eq_true (hexChar_bounds hd).1.ne'
  rw [iopChars, strLenOf_assemble, hmap, List.takeWhile_append_of_pos hne]
  simp

@[simp] theorem iopCodeOf_assemble : iopCodeOf (assemble iop ws) = iop := by
  rw [iopCodeOf, iopChars_assemble, spell_hex8, UInt32.ofNat_toNat]

theorem readLe_assemble {i : ℕ} {w : UInt32} (h : ws[i]? = some w) :
    readLe (assemble iop ws) (0x201 + 4 * i) 4 = some w.toNat := by
  have h' : (ws.map UInt32.toNat)[i]? = some w.toNat := by rw [List.getElem?_map, h]; rfl
  have hr := readLe_flatMap 4 (writeHead iop) [] h'
  have hlt : w.toNat < 256 ^ 4 := w.toNat_lt
  rwa [List.append_nil, writeHead_length, Nat.mod_eq_of_lt hlt] at hr

theorem wordAt_assemble {i : ℕ} {w : UInt32} (h : ws[i]? = some w) :
    wordAt (assemble iop ws) i = w := by
  rw [wordAt, readLe_assemble iop ws h, Option.getD_some, UInt32.ofNat_toNat]

end Assemble

/-- **A blob made of admitted words is of the format.** -/
theorem format_assemble {iop : UInt32} {ws : List UInt32}
    (h : ∀ (i : ℕ) (s : Slot), layout[i]? = some s → ∃ w, ws[i]? = some w ∧ s.Admits iop w) :
    Format (assemble iop ws) 8 where
  long := by rw [assemble_length]; omega
  count := (nPropsOf_assemble iop ws).le
  digits := by rw [iopChars_assemble, hex8_length]
  hex c hc := hexVal_hex8 (iopChars_assemble iop ws ▸ hc)
  words i s _ hs := by
    obtain ⟨w, hw, hadm⟩ := h i s hs
    rwa [iopCodeOf_assemble, wordAt_assemble iop ws hw]

/-- The decoded members are the parts of the words. -/
theorem decoded_assemble {iop : UInt32} {ws : List UInt32} {i : ℕ} {s : Slot} {w : UInt32}
    (hs : layout[i]? = some s) (hw : ws[i]? = some w) {f : FpField} {v : UInt32}
    (h : (f, v) ∈ s.writes w) : (decoded (assemble iop ws)).word f = v := by
  refine decoded_word hs ?_
  rwa [nPropsOf_assemble, if_pos (lt_of_layout hs), wordAt_assemble iop ws hw]

theorem decoded_assemble_iopCode (iop : UInt32) (ws : List UInt32) :
    (decoded (assemble iop ws)).word .iopCode = iop := by
  rw [decoded_iopCode (nPropsOf_assemble iop ws).le, iopCodeOf_assemble]

/-! ### What the encoder writes -/

/-- The words the encoder packs, slot by slot. -/
def packedWords (p : FujiProfile) (u : Uninit) : List UInt32 :=
  layout.mapIdx fun i s => s.packed p (u.value i)

theorem packedWords_getElem? (p : FujiProfile) (u : Uninit) (i : ℕ) :
    (packedWords p u)[i]? = layout[i]?.map fun s => s.packed p (u.value i) := by
  rw [packedWords, List.getElem?_mapIdx]

@[simp] theorem packedWords_length (p : FujiProfile) (u : Uninit) :
    (packedWords p u).length = 29 := by
  rw [packedWords, List.length_mapIdx, layout_length]

section Encode

variable {p : FujiProfile} {u : Uninit}

/-- While every slot fits, the loop packs one word after the other. -/
theorem packProps_of_fits : ∀ (n i : ℕ) (bin : List UInt8), i + n = 29 →
    (∀ (j : ℕ) (s : Slot), i ≤ j → layout[j]? = some s → s.Fits p) →
    packProps p u n i bin =
      let bin' := bin ++ (((packedWords p u).drop i).map UInt32.toNat).flatMap (leBytes 4)
      ⟨bin'.length, bin'⟩ := by
  intro n
  induction n with
  | zero =>
    intro i bin hi _
    rw [List.drop_eq_nil_of_le (by rw [packedWords_length]; omega)]
    simp only [packProps, List.map_nil, List.flatMap_nil, List.append_nil]
  | succ n ih =>
    intro i bin hi hfit
    obtain ⟨s, hs⟩ := exists_slot (show i < 29 by omega)
    have hw : (packedWords p u)[i]? = some (s.packed p (u.value i)) := by
      rw [packedWords_getElem?, hs, Option.map_some]
    obtain ⟨hlt, hget⟩ := List.getElem?_eq_some_iff.mp hw
    rw [packProps, getProp_of_fits hs (hfit i _ le_rfl hs)]
    simp only [ne_eq, not_true_eq_false, if_false]
    rw [ih (i + 1) _ (by omega) fun j s hj => hfit j s (by omega),
      List.drop_eq_getElem_cons hlt, hget, List.map_cons, List.flatMap_cons]
    simp only [List.append_assoc]

/-- A slot that does not fit ends the loop with an error. -/
theorem packProps_of_not_fits : ∀ (n i : ℕ) (bin : List UInt8), i + n = 29 →
    (∃ (j : ℕ) (s : Slot), i ≤ j ∧ layout[j]? = some s ∧ ¬ s.Fits p) →
    (packProps p u n i bin).rc = -1 := by
  intro n
  induction n with
  | zero =>
    rintro i bin hi ⟨j, s, hj, hs, -⟩
    have := lt_of_layout hs
    omega
  | succ n ih =>
    rintro i bin hi ⟨j, s, hj, hs, hbad⟩
    obtain ⟨t, ht⟩ := exists_slot (show i < 29 by omega)
    rw [packProps]
    by_cases hfit : t.Fits p
    -- the slot that does not fit comes later
    · have hne : i ≠ j := by
        rintro rfl
        exact hbad (Option.some.inj (ht.symm.trans hs) ▸ hfit)
      rw [getProp_of_fits ht hfit]
      simp only [ne_eq, not_true_eq_false, if_false]
      exact ih (i + 1) _ (by omega) ⟨j, s, by omega, hs, hbad⟩
    · have hrc := getProp_of_not_fits ht hfit (u.value i) (u.valueSize i)
      simp only [hrc, ne_eq, show ¬ (-1 : Int) = 0 by decide, not_false_eq_true, if_true]

/-- The profiles the encoder takes, as a whole. -/
def Encodable (p : FujiProfile) : Prop := ∀ s ∈ layout, s.Fits p

instance (p : FujiProfile) : Decidable (Encodable p) :=
  inferInstanceAs (Decidable (∀ s ∈ layout, _))

variable {len : ℕ}

/-- **The encoder writes the head and the packed words.** -/
theorem fpCreateD185_of_fits (hlen : 0x275 ≤ len) (h : Encodable p) :
    fpCreateD185 p u len = ⟨0x275, assemble (p.word .iopCode) (packedWords p u)⟩ := by
  rw [fpCreateD185, if_neg (by omega), packProps_of_fits 0x1d 0 _ rfl
    fun j s _ hs => h s (List.mem_of_getElem? hs), List.drop_zero]
  have hl := assemble_length (p.word .iopCode) (packedWords p u)
  rw [packedWords_length] at hl
  simp only [assemble] at hl ⊢
  rw [hl]
  rfl

theorem fpCreateD185_of_not_fits (hlen : 0x275 ≤ len) (h : ¬ Encodable p) :
    (fpCreateD185 p u len).rc = -1 := by
  rw [fpCreateD185, if_neg (by omega)]
  refine packProps_of_not_fits 0x1d 0 _ rfl ?_
  simp only [Encodable, not_forall] at h
  obtain ⟨s, hs, hbad⟩ := h
  obtain ⟨i, hi⟩ := List.mem_iff_getElem?.mp hs
  exact ⟨i, s, Nat.zero_le i, hi, hbad⟩

theorem fpCreateD185_rc_nonneg (hlen : 0x275 ≤ len) :
    0 ≤ (fpCreateD185 p u len).rc ↔ Encodable p := by
  by_cases h : Encodable p
  · simp [fpCreateD185_of_fits hlen h, h]
  · simp [fpCreateD185_of_not_fits hlen h, h]

end Encode

end D185

end Fuji
