/-
The round trips of the d185 codec.

* `fpCreateD185_exact_iff` — when the words of a blob are the members it was made
  from, and when a blob depends on its profile alone;
* `fpParseD185_create` — encoding and decoding gives a profile of listed values back,
  unless a large grain size goes with no grain effect;
* `fpCreateD185_parse` — decoding and encoding reproduces a canonical blob.
-/
import LibFuji.D185Encode

namespace Fuji

open ByteCodec

namespace D185

/-! ### Words and members -/

theorem Slot.packed_eq_fetch_iff {p : FujiProfile} {v : UInt32} {s : Slot} :
    s.packed p v = s.fetch p ↔ (s.Unwritten p → v = 0) := by
  by_cases h : s.Unwritten p
  · cases s with
    | setting f tbl =>
      have h0 : p.word f = 0 := h.1
      rw [Slot.packed, if_pos h, Slot.fetch, h0]
      exact ⟨fun hv _ => hv, fun hv => hv h⟩
    | grain =>
      have h0 : p.word .grainEffect = 0 := h
      simp [Slot.packed, Slot.fetch, Slot.Unwritten, h0]
    | reserved => exact absurd h id
  · simp only [Slot.packed_of_not_unwritten h, h, false_imp_iff]

/-- Every word of a blob is the member of its slot. -/
def Faithful (p : FujiProfile) (bin : List UInt8) : Prop :=
  ∀ (i : ℕ) (s : Slot), layout[i]? = some s →
    readLe bin (0x201 + 4 * i) 4 = some (s.fetch p).toNat

theorem faithful_assemble_iff {p : FujiProfile} {u : Uninit} {iop : UInt32} :
    Faithful p (assemble iop (packedWords p u)) ↔
      ∀ (i : ℕ) (s : Slot), layout[i]? = some s → s.Unwritten p → u.value i = 0 := by
  refine forall_congr' fun i => forall_congr' fun s => imp_congr_right fun hs => ?_
  have hw : (packedWords p u)[i]? = some (s.packed p (u.value i)) := by
    rw [packedWords_getElem?, hs, Option.map_some]
  rw [readLe_assemble _ _ hw, Option.some_inj, UInt32.toNat_inj, Slot.packed_eq_fetch_iff]

theorem packedWords_eq {p : FujiProfile} {u u' : Uninit}
    (h : ∀ s ∈ layout, ¬ s.Unwritten p) : packedWords p u = packedWords p u' := by
  refine List.ext_getElem? fun i => ?_
  rw [packedWords_getElem?, packedWords_getElem?]
  rcases hs : layout[i]? with _ | s
  · rfl
  · have hu := h s (List.mem_of_getElem? hs)
    simp only [Option.map_some, Slot.packed_of_not_unwritten hu]

/-- **When a blob says what the profile says.**  The words of a blob are the members it
was made from just when no leftover of `value` but 0 went into it, and the blob is a
function of the profile just when no member is 0 that its table does not list. -/
theorem fpCreateD185_exact_iff (p : FujiProfile) {len : ℕ} (hlen : 0x275 ≤ len) :
    (∀ u, (0 ≤ (fpCreateD185 p u len).rc → Faithful p (fpCreateD185 p u len).written) ↔
      (Encodable p →
        ∀ (i : ℕ) (s : Slot), layout[i]? = some s → s.Unwritten p → u.value i = 0)) ∧
    ((∀ u u', 0 ≤ (fpCreateD185 p u len).rc →
        (fpCreateD185 p u len).written = (fpCreateD185 p u' len).written) ↔
      (Encodable p → ∀ s ∈ layout, ¬ s.Unwritten p)) := by
  constructor
  · intro u
    rw [fpCreateD185_rc_nonneg hlen]
    refine imp_congr_right fun henc => ?_
    rw [fpCreateD185_of_fits hlen henc]
    exact faithful_assemble_iff
  · simp only [fpCreateD185_rc_nonneg hlen]
    constructor
    · intro h henc s hs hu
      obtain ⟨i, hi⟩ := List.mem_iff_getElem?.mp hs
      -- two leftovers that differ make two different words
      have hw := h ⟨fun _ => 0, fun _ => 0⟩ ⟨fun _ => 1, fun _ => 0⟩ henc
      rw [fpCreateD185_of_fits hlen henc, fpCreateD185_of_fits hlen henc] at hw
      have hf : ∀ v : UInt32, wordAt (assemble (p.word .iopCode)
          (packedWords p ⟨fun _ => v, fun _ => 0⟩)) i = s.packed p v := fun v =>
        wordAt_assemble _ _ (by rw [packedWords_getElem?, hi, Option.map_some])
      have heq : s.packed p 0 = s.packed p 1 :=
        (hf 0).symm.trans ((congrArg (wordAt · i) hw).trans (hf 1))
      have h0 : s.packed p 0 = s.fetch p := Slot.packed_eq_fetch_iff.mpr fun _ => rfl
      exact absurd (Slot.packed_eq_fetch_iff.mp (heq.symm.trans h0) hu) (by decide)
    · intro h u u' henc
      rw [fpCreateD185_of_fits hlen henc, fpCreateD185_of_fits hlen henc,
        packedWords_eq (h henc)]

/-- Neutral settings for a full-size JPG; every member holds a listed value. -/
def neutral : FujiProfile :=
  FujiProfile.zero.assign [(.iopCode, 0xff179502), (.shootingCondition, 2), (.fileType, 7),
    (.imageSize, 7), (.imageQuality, 2), (.dynamicRange, 100), (.filmSimulation, 1),
    (.grainEffect, 1), (.chromeEffect, 1), (.wbShootCond, 2), (.lensModulationOpt, 1),
    (.colorSpace, 1)]

/-- The same for a TIFF, without an image size and quality. -/
def neutralTiff : FujiProfile :=
  neutral.assign [(.fileType, 9), (.imageSize, 0), (.imageQuality, 0)]

theorem fpCreateD185_exact_neutral :
    ((0 ≤ (fpCreateD185 neutral ⟨fun _ => 7, fun _ => 7⟩ 1024).rc →
        Faithful neutral (fpCreateD185 neutral ⟨fun _ => 7, fun _ => 7⟩ 1024).written) ↔
      (Encodable neutral → ∀ (i : ℕ) (s : Slot), layout[i]? = some s →
        s.Unwritten neutral → (7 : UInt32) = 0)) ∧ 0x275 ≤ 1024 :=
  have hlen : 0x275 ≤ 1024 := by norm_num
  ⟨(fpCreateD185_exact_iff neutral hlen).1 _, hlen⟩

/-- The leftover 7, a JPG, is packed as the image size of a TIFF. -/
theorem fpCreateD185_neutralTiff :
    ¬ (0 ≤ (fpCreateD185 neutralTiff ⟨fun _ => 7, fun _ => 7⟩ 1024).rc →
      Faithful neutralTiff (fpCreateD185 neutralTiff ⟨fun _ => 7, fun _ => 7⟩ 1024).written) := by
  have henc : Encodable neutralTiff := by decide +kernel
  rw [fpCreateD185_rc_nonneg (by norm_num), fpCreateD185_of_fits (by norm_num) henc,
    faithful_assemble_iff]
  exact fun h => absurd (h henc 2 _ rfl (by decide +kernel)) (by decide)

/-! ### Encoding and decoding -/

/-- Every encoded member holds a value of its own table. -/
def ListedProfile (p : FujiProfile) : Prop := ∀ s ∈ layout, s.Listed p

instance (p : FujiProfile) : Decidable (ListedProfile p) :=
  inferInstanceAs (Decidable (∀ s ∈ layout, _))

theorem ListedProfile.encodable {p : FujiProfile} (h : ListedProfile p) : Encodable p :=
  fun s hs => (h s hs).fits

/-- Two profiles agree on the IOP code and on every encoded member. -/
def EncodedEq (p q : FujiProfile) : Prop :=
  q.word .iopCode = p.word .iopCode ∧ ∀ s ∈ layout, ∀ f ∈ s.fields, q.word f = p.word f

/-- A listed grain effect and size, other than OFF with LARGE, are unpacked as they
were. -/
theorem grainOf_add {e z : UInt32} (he : e ∈ FujiLookup.values fpGrainEffect)
    (hz : z ∈ FujiLookup.values fpGrainEffectSize) (hne : ¬ (e = 1 ∧ z = 2)) :
    Slot.grainOf (e + z) = e ∧ e + z - Slot.grainOf (e + z) = z ∧ e + z ≤ 5 := by
  simp only [FujiLookup.values, fpGrainEffect, fpGrainEffectSize, List.map_cons, List.map_nil,
    List.mem_cons, List.not_mem_nil, or_false] at he hz
  rcases he with rfl | rfl | rfl <;> rcases hz with rfl | rfl <;> first
    | exact absurd ⟨rfl, rfl⟩ hne
    | decide

/-- The word of a listed slot is admitted, and its parts are the members. -/
theorem Slot.Listed.writes_fetch {p : FujiProfile} {s : Slot} (h : s.Listed p)
    (hne : ¬ (p.word .grainEffect = 1 ∧ p.word .grainEffectSize = 2)) :
    s.Admits (p.word .iopCode) (s.fetch p) ∧
      ∀ f ∈ s.fields, (f, p.word f) ∈ s.writes (s.fetch p) := by
  cases s with
  | setting f tbl => exact ⟨.inr h, fun g hg => by simp_all [Slot.fields, Slot.writes, Slot.fetch]⟩
  | grain =>
    obtain ⟨h1, h2, h3⟩ := grainOf_add h.1 h.2 hne
    refine ⟨h3, fun g hg => ?_⟩
    rw [Slot.fetch, Slot.writes, h1, add_sub_cancel_left]
    simp only [Slot.fields, List.mem_cons, List.not_mem_nil, or_false] at hg
    rcases hg with rfl | rfl
    · exact List.mem_cons_self ..
    · exact List.mem_cons_of_mem _ (List.mem_cons_self ..)
  | reserved => exact ⟨trivial, fun g hg => by simp [Slot.fields] at hg⟩

theorem packedWords_of_listed {p : FujiProfile} (h : ListedProfile p) (u : Uninit) {i : ℕ}
    {s : Slot} (hs : layout[i]? = some s) : (packedWords p u)[i]? = some (s.fetch p) := by
  have hl := h s (List.mem_of_getElem? hs)
  rw [packedWords_getElem?, hs, Option.map_some, Slot.packed_of_not_unwritten hl.not_unwritten]

theorem parse_packedWords {p : FujiProfile} (h : ListedProfile p)
    (hne : ¬ (p.word .grainEffect = 1 ∧ p.word .grainEffectSize = 2)) (u : Uninit) :
    Format (assemble (p.word .iopCode) (packedWords p u)) 8 ∧
      EncodedEq p (decoded (assemble (p.word .iopCode) (packedWords p u))) := by
  refine ⟨format_assemble fun i s hs => ?_, decoded_assemble_iopCode .., fun s hs f hf => ?_⟩
  · exact ⟨_, packedWords_of_listed h u hs,
      ((h s (List.mem_of_getElem? hs)).writes_fetch hne).1⟩
  · obtain ⟨i, hi⟩ := List.mem_iff_getElem?.mp hs
    exact decoded_assemble hi (packedWords_of_listed h u hi)
      (((h s hs).writes_fetch hne).2 f hf)

/-- **Encoding and decoding a profile of listed values gives it back**: both succeed, and no
two such profiles that differ in an encoded member have the same blob, whatever the locals of
the encoder hold.  A large grain size together with no grain effect is left out. -/
theorem fpParseD185_create {p : FujiProfile} (h : ListedProfile p)
    (hne : ¬ (p.word .grainEffect = 1 ∧ p.word .grainEffectSize = 2)) (u : Uninit)
    (fp : FujiProfile) {len : ℕ} (hlen : 0x275 ≤ len) :
    (fpCreateD185 p u len).rc = 0x275 ∧
      (∃ q, fpParseD185 (fpCreateD185 p u len).written fp = some (0, q) ∧ EncodedEq p q) ∧
      ∀ p' u', ListedProfile p' →
        ¬ (p'.word .grainEffect = 1 ∧ p'.word .grainEffectSize = 2) →
        (fpCreateD185 p u len).written = (fpCreateD185 p' u' len).written → EncodedEq p p' := by
  obtain ⟨hf, heq⟩ := parse_packedWords h hne u
  rw [fpCreateD185_of_fits hlen h.encodable]
  refine ⟨rfl, ⟨_, fpParseD185_of_format (hf.mono (by norm_num)) fp, heq⟩, ?_⟩
  intro p' u' h' hne' hw
  rw [fpCreateD185_of_fits hlen h'.encodable] at hw
  have hw' : assemble (p.word .iopCode) (packedWords p u)
    = assemble (p'.word .iopCode) (packedWords p' u') := hw
  obtain ⟨-, heq'⟩ := parse_packedWords h' hne' u'
  rw [← hw'] at heq'
  exact ⟨heq'.1.symm.trans heq.1, fun s hs f hg =>
    (heq'.2 s hs f hg).symm.trans (heq.2 s hs f hg)⟩

theorem fpParseD185_create_neutral :
    (fpCreateD185 neutral ⟨fun _ => 7, fun _ => 7⟩ 1024).rc = 0x275 ∧
      (∃ q, fpParseD185 (fpCreateD185 neutral ⟨fun _ => 7, fun _ => 7⟩ 1024).written
          FujiProfile.zero = some (0, q) ∧ EncodedEq neutral q) ∧
      ∀ p' u', ListedProfile p' →
        ¬ (p'.word .grainEffect = 1 ∧ p'.word .grainEffectSize = 2) →
        (fpCreateD185 neutral ⟨fun _ => 7, fun _ => 7⟩ 1024).written
          = (fpCreateD185 p' u' 1024).written → EncodedEq neutral p' :=
  fpParseD185_create (by decide +kernel) (by decide +kernel) _ _ (by norm_num)

/-- No grain effect with a large grain size is packed as a strong effect of small size. -/
theorem fpParseD185_create_grain :
    ListedProfile (neutral.set .grainEffectSize 2) ∧
      ¬ ∃ q, fpParseD185 (fpCreateD185 (neutral.set .grainEffectSize 2)
          ⟨fun _ => 7, fun _ => 7⟩ 1024).written FujiProfile.zero = some (0, q) ∧
        EncodedEq (neutral.set .grainEffectSize 2) q := by
  refine ⟨by decide +kernel, ?_⟩
  rintro ⟨q, hq, -, heq⟩
  have hrun : (fpParseD185 (fpCreateD185 (neutral.set .grainEffectSize 2)
      ⟨fun _ => 7, fun _ => 7⟩ 1024).written FujiProfile.zero).map
        (fun r => r.2.word .grainEffect) = some 3 := by
    decide +kernel
  rw [hq, Option.map_some, Option.some_inj] at hrun
  have h1 := heq .grain (by simp [layout]) .grainEffect (by simp [Slot.fields])
  rw [hrun] at h1
  exact absurd h1 (by decide +kernel)

/-! ### Decoding and encoding -/

/-- The words of a slot in a canonical blob. -/
def Slot.Canonical (iop w : UInt32) : Slot → Prop
  | setting _ tbl => w ∈ FujiLookup.values (tbl iop)
  | grain => 1 ≤ w ∧ w ≤ 5
  | reserved => w = 0

instance (iop w : UInt32) (s : Slot) : Decidable (s.Canonical iop w) :=
  match s with
  | .setting _ _ => inferInstanceAs (Decidable (_ ∈ _))
  | .grain => inferInstanceAs (Decidable (_ ∧ _))
  | .reserved => inferInstanceAs (Decidable (_ = _))

/-- A canonical blob: the bytes 1D 00 09, eight hexadecimal digits and a NUL in UTF-16,
zeros up to 0x201, and 29 words out of the tables. -/
def CanonicalBlob (b : List UInt8) : Prop :=
  ∃ (cs : List ℕ) (ws : List UInt32), cs.length = 8 ∧ (∀ c ∈ cs, (hexVal c).isSome) ∧
    ws.length = 29 ∧
    (∀ sw ∈ layout.zip ws, sw.1.Canonical (UInt32.ofNat (spell cs)) sw.2) ∧
    b = [0x1d, 0x00, 0x09] ++ (cs ++ [0]).flatMap (leBytes 2) ++ List.replicate 492 0
      ++ (ws.map UInt32.toNat).flatMap (leBytes 4)

theorem Slot.Canonical.admits {iop w : UInt32} {s : Slot} (h : s.Canonical iop w) :
    s.Admits iop w := by
  cases s with
  | setting f tbl => exact .inr h
  | grain => exact h.2
  | reserved => trivial

/-- A profile that holds the parts of a canonical word fits the slot, which packs that
word. -/
theorem Slot.Canonical.packed_eq {p : FujiProfile} {w : UInt32} {s : Slot}
    (h : s.Canonical (p.word .iopCode) w) (hp : ∀ a ∈ s.writes w, p.word a.1 = a.2) :
    s.Fits p ∧ ∀ v, s.packed p v = w := by
  cases s with
  | setting f tbl =>
    have hf : p.word f = w := hp (f, w) (List.mem_singleton.mpr rfl)
    have hl : (Slot.setting f tbl).Listed p := by
      change p.word f ∈ _
      rwa [hf]
    exact ⟨hl.fits, fun v => by rw [packed_of_not_unwritten hl.not_unwritten, fetch, hf]⟩
  | grain =>
    have he : p.word .grainEffect = grainOf w := hp _ (List.mem_cons_self ..)
    have hz : p.word .grainEffectSize = w - grainOf w :=
      hp _ (List.mem_cons_of_mem _ (List.mem_cons_self ..))
    have hne : grainOf w ≠ 0 := by
      obtain ⟨h1, h2⟩ := h
      rw [grainOf]
      split <;> grind
    obtain ⟨h1, h2⟩ := grainOf_mem h.2
    refine ⟨⟨he ▸ h1, hz ▸ h2⟩, fun v => ?_⟩
    rw [packed, he, if_neg hne, hz]
    exact add_sub_cancel ..
  | reserved => exact ⟨trivial, fun v => Eq.symm h⟩

/-- What has been decoded from canonical words is packed into the same words, whatever the
locals hold. -/
theorem packedWords_decoded {iop : UInt32} {ws : List UInt32} (hws : ws.length = 29)
    (hcan : ∀ (i : ℕ) (s : Slot), layout[i]? = some s →
      ∃ w, ws[i]? = some w ∧ s.Canonical iop w) :
    Encodable (decoded (assemble iop ws)) ∧
      ∀ u, packedWords (decoded (assemble iop ws)) u = ws := by
  have hiop : (decoded (assemble iop ws)).word .iopCode = iop := decoded_assemble_iopCode ..
  have hslot (i : ℕ) (s : Slot) (hs : layout[i]? = some s) :
      s.Fits (decoded (assemble iop ws)) ∧
        ∀ v, some (s.packed (decoded (assemble iop ws)) v) = ws[i]? := by
    obtain ⟨w, hw, hc⟩ := hcan i s hs
    obtain ⟨hfit, hpack⟩ := Slot.Canonical.packed_eq (hiop.symm ▸ hc)
      fun a ha => decoded_assemble hs hw ha
    exact ⟨hfit, fun v => by rw [hpack, hw]⟩
  refine ⟨fun s hs => ?_, fun u => List.ext_getElem? fun i => ?_⟩
  · obtain ⟨i, hi⟩ := List.mem_iff_getElem?.mp hs
    exact (hslot i s hi).1
  · rw [packedWords_getElem?]
    rcases hs : layout[i]? with _ | s
    · rw [Option.map_none, List.getElem?_eq_none]
      rw [hws, ← layout_length]
      exact List.getElem?_eq_none_iff.mp hs
    · exact (hslot i s hs).2 _

/-- **Decoding and encoding reproduces a canonical blob** byte for byte, whatever the
locals of the encoder hold. -/
theorem fpCreateD185_parse {b : List UInt8} (h : CanonicalBlob b) (fp : FujiProfile)
    {len : ℕ} (hlen : 0x275 ≤ len) :
    ∃ q, fpParseD185 b fp = some (0, q) ∧ ∀ u, fpCreateD185 q u len = ⟨0x275, b⟩ := by
  obtain ⟨cs, ws, hcs, hex, hws, hcan, rfl⟩ := h
  have hblob : [0x1d, 0x00, 0x09] ++ (cs ++ [0]).flatMap (leBytes 2) ++ List.replicate 492 0
      ++ (ws.map UInt32.toNat).flatMap (leBytes 4)
        = assemble (UInt32.ofNat (spell cs)) ws := by
    rw [assemble, writeHead_eq, hex8_spell hcs hex]
    rfl
  rw [hblob]
  set iop := UInt32.ofNat (spell cs)
  -- the words by index, as the loops see them
  have hword (i : ℕ) (s : Slot) (hs : layout[i]? = some s) :
      ∃ w, ws[i]? = some w ∧ s.Canonical iop w := by
    have hi : i < ws.length := hws ▸ lt_of_layout hs
    refine ⟨ws[i], List.getElem?_eq_getElem hi, hcan (s, ws[i]) ?_⟩
    exact List.mem_of_getElem? (List.getElem?_zip_eq_some.mpr
      ⟨hs, List.getElem?_eq_getElem hi⟩)
  have hfmt : Format (assemble iop ws) 8 := format_assemble fun i s hs => by
    obtain ⟨w, hw, hc⟩ := hword i s hs
    exact ⟨w, hw, hc.admits⟩
  obtain ⟨henc, hwords⟩ := packedWords_decoded hws hword
  refine ⟨_, fpParseD185_of_format (hfmt.mono (by norm_num)) fp, fun u => ?_⟩
  rw [fpCreateD185_of_fits hlen henc, hwords, decoded_assemble_iopCode]

theorem fpCreateD185_parse_neutral :
    ∃ q, fpParseD185 (assemble 0xff179502 (packedWords neutral ⟨fun _ => 7, fun _ => 7⟩))
        FujiProfile.zero = some (0, q) ∧
      ∀ u, fpCreateD185 q u 0x275
        = ⟨0x275, assemble 0xff179502 (packedWords neutral ⟨fun _ => 7, fun _ => 7⟩)⟩ :=
  fpCreateD185_parse
    ⟨hex8 0xff179502, packedWords neutral ⟨fun _ => 7, fun _ => 7⟩, by decide +kernel,
      by decide +kernel, by decide +kernel, by decide +kernel, by decide +kernel⟩
    FujiProfile.zero le_rfl

end D185

end Fuji
