/-
The list of the properties over many calls (`fuji_register_device_info` in `data.c`).

On a well-formed payload a call reads every entry (`PropPayload.walked`).  An entry of a type of
which no values are read leaves its slot as it is; the slot is counted all the same, and the next
call frees what it takes for the pointer in it.

`fujiRegisterDeviceInfo_keeps_iff` says when the list can be trusted, over every sequence of calls:
if there is no such entry in any payload.
-/
import LibFuji.PropList

namespace Fuji

open ByteCodec Interaction

/-! ### Well-formed payloads -/

/-- What an entry says of its property behind the header. -/
inductive PropBody
  | words (default : UInt32) (form : UInt8) (values : List UInt16)
  | dwords (default factory : UInt32) (form : UInt8) (values : List UInt32)
  | other (bytes : List UInt8)

/-- The bytes of a body. -/
def PropBody.encode : PropBody → List UInt8
  | words default form values =>
    leBytes 4 default.toNat ++ [form] ++ leBytes 2 values.length ++
      values.flatMap fun v => leBytes 2 v.toNat
  | dwords default factory form values =>
    leBytes 4 default.toNat ++ leBytes 4 factory.toNat ++ [form] ++ leBytes 2 values.length ++
      values.flatMap fun v => leBytes 4 v.toNat
  | other bytes => bytes

/-- Is this the body of an entry of the type? -/
def PropBody.Fits (type : UInt16) : PropBody → Prop
  | words _ _ values => (type = 3 ∨ type = 4) ∧ values.length < 2 ^ 16
  | dwords _ _ _ values => type = 6 ∧ values.length < 2 ^ 16
  | other _ => ¬ SupportedType type

/-- An entry, which may be longer than what it holds. -/
structure PropEntry where
  code : UInt16
  type : UInt16
  access : UInt8
  body : PropBody
  tail : List UInt8
  fits : body.Fits type

/-- The length of an entry. -/
def PropEntry.size (e : PropEntry) : ℕ := 9 + (e.body.encode ++ e.tail).length

/-- The bytes of an entry. -/
def PropEntry.encode (e : PropEntry) : List UInt8 :=
  leBytes 4 e.size ++ leBytes 2 e.code.toNat ++ leBytes 2 e.type.toNat ++ [e.access] ++
    (e.body.encode ++ e.tail)

/-- The entries of a payload, whose length is a 32-bit number. -/
structure PropPayload where
  entries : List PropEntry
  length_lt : 4 + (entries.flatMap PropEntry.encode).length < 2 ^ 32

/-- The bytes of a payload. -/
def PropPayload.encode (p : PropPayload) : List UInt8 :=
  leBytes 4 p.entries.length ++ p.entries.flatMap PropEntry.encode

/-- A value of the property of this code. -/
def PropDescValue.of (code : UInt16) (val : UInt32) : PropDescValue :=
  ⟨getValName code.toUInt32 val, val⟩

/-- The descriptor of an entry; there is none for the types of which no values are read. -/
def PropEntry.desc (e : PropEntry) : Option FujiPropDesc :=
  match e.body with
  | .words _ _ values => some ⟨e.code, UInt16.ofNat values.length,
      values.map fun v => .of e.code v.toUInt32⟩
  | .dwords _ _ _ values => some ⟨e.code, UInt16.ofNat values.length, values.map (.of e.code)⟩
  | .other _ => none

/-! ### Reading them -/

section Read

variable {payload l r : List UInt8} {of : UInt32} {code type : UInt16}

theorem u16At_mid {v : ℕ} (hp : payload = l ++ leBytes 2 v ++ r) (hof : of.toNat = l.length) :
    FieldInside payload of 2 ∧ u16At payload of = UInt16.ofNat v := by
  have hread := readLe_mid l (leBytes 2 v) r
  rw [leBytes_length, leNat_leBytes] at hread
  obtain ⟨hlen, hval⟩ := readLe_eq_some.mp hread
  rw [← hp, ← hof] at hlen hval
  refine ⟨hlen, ?_⟩
  rw [u16At, hval]
  exact UInt16.toNat_inj.mp (by simp)

theorem u32At_mid {v : ℕ} (hp : payload = l ++ leBytes 4 v ++ r) (hof : of.toNat = l.length) :
    FieldInside payload of 4 ∧ u32At payload of = UInt32.ofNat v := by
  have hread := readLe_mid l (leBytes 4 v) r
  rw [leBytes_length, leNat_leBytes] at hread
  obtain ⟨hlen, hval⟩ := readLe_eq_some.mp hread
  rw [← hp, ← hof] at hlen hval
  refine ⟨hlen, ?_⟩
  rw [u32At, hval]
  exact UInt32.toNat_inj.mp (by simp)

/-- An offset that does not wrap. -/
theorem toNat_add_of {k : UInt32} {n : ℕ} (hof : of.toNat = n) (hlt : n + k.toNat < 2 ^ 32) :
    (of + k).toNat = n + k.toNat := by
  rw [UInt32.toNat_add, hof, Nat.mod_eq_of_lt hlt]

section Items

variable {α : Type} {enc : α → List UInt8} {val : α → UInt32}

/-- The values of a property, each of which is read as `val` says. -/
theorem itemsAt_mid (henc : ∀ v, (enc v).length = (valueWidth type).toNat)
    (hval : ∀ v l r of, payload = l ++ enc v ++ r → of.toNat = l.length →
      FieldInside payload of (valueWidth type).toNat ∧ valueAt payload type of = val v)
    {values : List α} (hp : payload = l ++ values.flatMap enc ++ r) (hof : of.toNat = l.length)
    (hlt : (l ++ values.flatMap enc).length < 2 ^ 32) :
    ItemsInside payload type values.length of ∧
      itemsAt payload code type values.length of = values.map fun v => .of code (val v) := by
  induction values generalizing l of with
  | nil => exact ⟨trivial, rfl⟩
  | cons v values ih =>
    rw [List.flatMap_cons] at hp hlt
    obtain ⟨hholds, hv⟩ := hval v l (values.flatMap enc ++ r) of (by simpa using hp) hof
    have hnext : (of + valueWidth type).toNat = (l ++ enc v).length := by
      rw [toNat_add_of hof, List.length_append, henc]
      rw [List.length_append, List.length_append, henc] at hlt
      omega
    obtain ⟨hinside, hitems⟩ := ih (by simpa using hp) hnext (by simpa using hlt)
    refine ⟨⟨hholds, hinside⟩, ?_⟩
    rw [List.length_cons, itemsAt, hitems, hv]
    rfl

/-- Behind the default values stand the number of values and the values. -/
theorem descAt_values (henc : ∀ v, (enc v).length = (valueWidth type).toNat)
    (hval : ∀ v l r of, payload = l ++ enc v ++ r → of.toNat = l.length →
      FieldInside payload of (valueWidth type).toNat ∧ valueAt payload type of = val v)
    {values : List α} (hcount : values.length < 2 ^ 16) {front : List UInt8}
    (hp : payload = front ++ leBytes 2 values.length ++ values.flatMap enc ++ r)
    (hdefaults : DefaultsInside payload type of)
    (hfront : (behindDefaults type of + 1).toNat = front.length)
    (hlt : (front ++ leBytes 2 values.length ++ values.flatMap enc).length < 2 ^ 32) :
    DescInside payload type of ∧ descAt payload code type of
      = ⟨code, UInt16.ofNat values.length, values.map fun v => .of code (val v)⟩ := by
  obtain ⟨hholds, hn⟩ := u16At_mid (r := values.flatMap enc ++ r) (by simpa using hp) hfront
  have hnat : (UInt16.ofNat values.length).toNat = values.length := UInt16.toNat_ofNat_of_lt' hcount
  have hitems : (behindDefaults type of + 1 + 2).toNat
      = (front ++ leBytes 2 values.length).length := by
    rw [toNat_add_of hfront, List.length_append, leBytes_length]
    · rfl
    · rw [List.length_append, List.length_append, leBytes_length] at hlt
      have htwo : (2 : UInt32).toNat = 2 := rfl
      omega
  obtain ⟨hinside, hvalues⟩ := itemsAt_mid henc hval hp hitems hlt
  refine ⟨⟨hdefaults, hholds, ?_⟩, ?_⟩
  · rwa [hn, hnat]
  · rw [descAt, hn, hnat, hvalues]

end Items

theorem valueAt_word (htype : type = 3 ∨ type = 4) (v : UInt16)
    (hp : payload = l ++ leBytes 2 v.toNat ++ r) (hof : of.toNat = l.length) :
    FieldInside payload of (valueWidth type).toNat ∧ valueAt payload type of = v.toUInt32 := by
  have h6 : type ≠ 6 := by rcases htype with rfl | rfl <;> decide
  obtain ⟨hholds, hval⟩ := u16At_mid hp hof
  rw [valueWidth, valueAt, if_neg h6, if_neg h6, hval, UInt16.ofNat_toNat]
  exact ⟨hholds, rfl⟩

theorem valueAt_dword (v : UInt32) (hp : payload = l ++ leBytes 4 v.toNat ++ r)
    (hof : of.toNat = l.length) :
    FieldInside payload of (valueWidth 6).toNat ∧ valueAt payload 6 of = v := by
  obtain ⟨hholds, hval⟩ := u32At_mid hp hof
  rw [valueWidth, valueAt, if_pos rfl, if_pos rfl, hval, UInt32.ofNat_toNat]
  exact ⟨hholds, rfl⟩

/-- The body of an entry, from the offset behind the header on. -/
theorem descAt_mid {e : PropEntry} {desc : FujiPropDesc} (hdesc : e.desc = some desc)
    (hp : payload = l ++ e.body.encode ++ r) (hof : of.toNat = l.length)
    (hlt : (l ++ e.body.encode).length < 2 ^ 32) :
    DescInside payload e.type of ∧ descAt payload e.code e.type of = desc := by
  have hfits := e.fits
  have hone : (1 : UInt32).toNat = 1 := rfl
  have hfour : (4 : UInt32).toNat = 4 := rfl
  have height : (8 : UInt32).toNat = 8 := rfl
  cases hbody : e.body with
  | words default form values =>
    rw [hbody] at hfits hp hlt
    obtain ⟨htype, hcount⟩ := hfits
    have h6 : e.type ≠ 6 := by rcases htype with h | h <;> rw [h] <;> decide
    simp only [PropBody.encode, List.length_append, leBytes_length, List.length_singleton] at hlt
    rw [PropEntry.desc, hbody] at hdesc
    obtain rfl := Option.some.inj hdesc
    have hwidth (v : UInt16) : (leBytes 2 v.toNat).length = (valueWidth e.type).toNat := by
      rw [leBytes_length, valueWidth, if_neg h6]
      rfl
    have hvalues : payload = (l ++ leBytes 4 default.toNat ++ [form]) ++ leBytes 2 values.length ++
        (values.flatMap fun v => leBytes 2 v.toNat) ++ r := by
      simpa [PropBody.encode] using hp
    refine descAt_values hwidth (fun v _ _ _ => valueAt_word htype v) hcount hvalues ?_ ?_ ?_
    · have hdefault : payload = l ++ leBytes 4 default.toNat ++ ([form] ++
          leBytes 2 values.length ++ (values.flatMap fun v => leBytes 2 v.toNat) ++ r) := by
        simpa using hvalues
      rw [DefaultsInside, if_neg h6]
      exact (u32At_mid hdefault hof).1
    · rw [behindDefaults, if_neg h6, toNat_add_of (toNat_add_of hof (by omega)) (by omega)]
      simp [hfour, hone]
    · simp only [List.length_append, leBytes_length, List.length_singleton]
      omega
  | dwords default factory form values =>
    rw [hbody] at hfits hp hlt
    obtain ⟨htype, hcount⟩ := hfits
    simp only [PropBody.encode, List.length_append, leBytes_length, List.length_singleton] at hlt
    rw [PropEntry.desc, hbody] at hdesc
    obtain rfl := Option.some.inj hdesc
    rw [htype]
    have hwidth (v : UInt32) : (leBytes 4 v.toNat).length = (valueWidth 6).toNat :=
      leBytes_length 4 v.toNat
    have hvalues : payload = (l ++ leBytes 4 default.toNat ++ leBytes 4 factory.toNat ++ [form]) ++
        leBytes 2 values.length ++ (values.flatMap fun v => leBytes 4 v.toNat) ++ r := by
      simpa [PropBody.encode] using hp
    refine descAt_values hwidth (fun v _ _ _ => valueAt_dword v) hcount hvalues ?_ ?_ ?_
    · have hdefault : payload = l ++ leBytes 4 default.toNat ++ (leBytes 4 factory.toNat ++ [form] ++
          leBytes 2 values.length ++ (values.flatMap fun v => leBytes 4 v.toNat) ++ r) := by
        simpa using hvalues
      have hfactory : payload = (l ++ leBytes 4 default.toNat) ++ leBytes 4 factory.toNat ++
          ([form] ++ leBytes 2 values.length ++
            (values.flatMap fun v => leBytes 4 v.toNat) ++ r) := by
        simpa using hvalues
      have hbehind : (of + 4).toNat = (l ++ leBytes 4 default.toNat).length := by
        rw [toNat_add_of hof (by omega), List.length_append, leBytes_length, hfour]
      rw [DefaultsInside, if_pos rfl]
      exact ⟨(u32At_mid hdefault hof).1, (u32At_mid hfactory hbehind).1⟩
    · rw [behindDefaults, if_pos rfl, toNat_add_of (toNat_add_of hof (by omega)) (by omega)]
      simp [height, hone]
    · simp only [List.length_append, leBytes_length, List.length_singleton]
      omega
  | other bytes =>
    rw [PropEntry.desc, hbody] at hdesc
    cases hdesc

theorem PropEntry.encode_length (e : PropEntry) : e.encode.length = e.size := by
  simp only [PropEntry.encode, PropEntry.size, List.length_append, leBytes_length,
    List.length_singleton]

theorem PropEntry.desc_isSome_iff (e : PropEntry) : e.desc.isSome ↔ SupportedType e.type := by
  have hfits := e.fits
  rw [PropEntry.desc]
  cases hbody : e.body with
  | words default form values =>
    rw [hbody] at hfits
    exact iff_of_true rfl (hfits.1.imp_right .inl)
  | dwords default factory form values =>
    rw [hbody] at hfits
    exact iff_of_true rfl (.inr (.inr hfits.1))
  | other bytes =>
    rw [hbody] at hfits
    exact iff_of_false (by simp) hfits

/-- **An entry is read as what it holds.** -/
theorem entryAt_mid (e : PropEntry) (hp : payload = l ++ e.encode ++ r) (hof : of.toNat = l.length)
    (hlt : (l ++ e.encode).length < 2 ^ 32) :
    EntryInside payload of ∧ entryAt payload of = (e.desc, of + UInt32.ofNat e.size) := by
  have htwo : (2 : UInt32).toNat = 2 := rfl
  have hone : (1 : UInt32).toNat = 1 := rfl
  have hfour : (4 : UInt32).toNat = 4 := rfl
  rw [List.length_append, e.encode_length, PropEntry.size, List.length_append] at hlt
  obtain ⟨hsize, hsizeval⟩ := u32At_mid (l := l) (v := e.size) (by simpa [PropEntry.encode] using hp) hof
  have hcodeof : (of + 4).toNat = (l ++ leBytes 4 e.size).length := by
    rw [toNat_add_of hof (by omega), List.length_append, leBytes_length, hfour]
  obtain ⟨hcode, hcodeval⟩ := u16At_mid (v := e.code.toNat) (by simpa [PropEntry.encode] using hp) hcodeof
  have htypeof : (of + 4 + 2).toNat = (l ++ leBytes 4 e.size ++ leBytes 2 e.code.toNat).length := by
    rw [toNat_add_of (toNat_add_of hof (by omega)) (by omega)]
    simp [hfour, htwo]
  obtain ⟨htype, htypeval⟩ := u16At_mid (v := e.type.toNat) (by simpa [PropEntry.encode] using hp) htypeof
  rw [UInt16.ofNat_toNat] at hcodeval htypeval
  have hbodyof : (of + 4 + 2 + 2 + 1).toNat = (l ++ leBytes 4 e.size ++ leBytes 2 e.code.toNat ++
      leBytes 2 e.type.toNat ++ [e.access]).length := by
    rw [toNat_add_of (toNat_add_of htypeof ?_) ?_]
    · simp [htwo, hone]
    · simp only [List.length_append, leBytes_length]
      omega
    · simp only [List.length_append, leBytes_length]
      omega
  rw [EntryInside, entryAt, hsizeval, hcodeval, htypeval]
  by_cases hsupported : SupportedType e.type
  · obtain ⟨desc, hdesc⟩ := Option.isSome_iff_exists.mp (e.desc_isSome_iff.mpr hsupported)
    obtain ⟨hinside, hvalue⟩ := descAt_mid (r := e.tail ++ r) hdesc (by simpa [PropEntry.encode] using hp)
      hbodyof (by
        simp only [List.length_append, leBytes_length, List.length_singleton]
        omega)
    rw [if_pos hsupported, if_pos hsupported, hdesc, hvalue]
    exact ⟨⟨hsize, hcode, htype, hinside⟩, rfl⟩
  · have hnone : e.desc = none := by
      rw [← Option.not_isSome_iff_eq_none, e.desc_isSome_iff]
      exact hsupported
    rw [if_neg hsupported, if_neg hsupported, hnone]
    exact ⟨⟨hsize, hcode, htype, trivial⟩, rfl⟩

theorem entriesAt_mid {entries : List PropEntry}
    (hp : payload = l ++ entries.flatMap PropEntry.encode ++ r) (hof : of.toNat = l.length)
    (hlt : (l ++ entries.flatMap PropEntry.encode).length < 2 ^ 32) :
    EntriesInside payload entries.length of ∧
      entriesAt payload entries.length of = some (entries.map PropEntry.desc) := by
  induction entries generalizing l of with
  | nil => exact ⟨trivial, rfl⟩
  | cons e entries ih =>
    rw [List.flatMap_cons] at hp hlt
    have hlt' : (l ++ e.encode).length < 2 ^ 32 := by
      simp only [List.length_append] at hlt ⊢
      omega
    have hp' : payload = l ++ e.encode ++ (entries.flatMap PropEntry.encode ++ r) := by simpa using hp
    obtain ⟨hinside, hentry⟩ := entryAt_mid e hp' hof hlt'
    have hsize : (UInt32.ofNat e.size).toNat = e.size := by
      refine UInt32.toNat_ofNat_of_lt' ?_
      rw [List.length_append, e.encode_length] at hlt'
      rw [UInt32.size]
      omega
    have hnext : (of + UInt32.ofNat e.size).toNat = (l ++ e.encode).length := by
      rw [List.length_append, e.encode_length] at hlt' ⊢
      rw [toNat_add_of hof (by rwa [hsize]), hsize]
    obtain ⟨hrest, hdescs⟩ := ih (by simpa using hp) hnext (by simpa using hlt)
    have hu32 : of + u32At payload of = of + UInt32.ofNat e.size := by
      rw [← entryAt_snd, hentry]
    have hof' : ¬ of.toNat > payload.length := by
      rw [hof, hp']
      simp
    refine ⟨.inr ⟨hinside, ?_⟩, ?_⟩
    · rwa [hu32]
    · rw [List.length_cons, entriesAt, if_neg hof', hentry, hdescs]
      rfl

/-- Every entry has a byte at least, so that the number of entries is a 32-bit number as well. -/
theorem PropPayload.count_lt (p : PropPayload) : p.entries.length < 2 ^ 32 := by
  have hle : p.entries.length ≤ (p.entries.flatMap PropEntry.encode).length := by
    induction p.entries with
    | nil => exact Nat.zero_le _
    | cons e entries ih =>
      rw [List.flatMap_cons, List.length_append, List.length_cons, e.encode_length, PropEntry.size]
      omega
  have hlt := p.length_lt
  omega

/-- **What a call makes of a well-formed payload.** -/
theorem PropPayload.registered_eq (p : PropPayload) (r : List UInt8) (reg : Registry) :
    Walkable (p.encode ++ r) ∧ registered (p.encode ++ r) reg =
      some (⟨⟨UInt32.ofNat p.entries.length,
        some (allocate reg.allocated (p.entries.map PropEntry.desc))⟩,
        reg.allocated + (p.entries.map PropEntry.desc).reduceOption.length⟩, reg.list.freed) := by
  have hcount := p.count_lt
  have hnat : (UInt32.ofNat p.entries.length).toNat = p.entries.length :=
    UInt32.toNat_ofNat_of_lt' hcount
  have hpayload : p.encode ++ r =
      [] ++ leBytes 4 p.entries.length ++ (p.entries.flatMap PropEntry.encode ++ r) := by
    simp [PropPayload.encode]
  obtain ⟨hholds, hn⟩ := u32At_mid hpayload (show (0 : UInt32).toNat = _ from rfl)
  have hentries : p.encode ++ r =
      leBytes 4 p.entries.length ++ p.entries.flatMap PropEntry.encode ++ r := rfl
  have hlt := p.length_lt
  have hfour : (4 : UInt32).toNat = (leBytes 4 p.entries.length).length := by
    rw [leBytes_length]
    rfl
  obtain ⟨hinside, hslots⟩ := entriesAt_mid hentries hfour (by
    rwa [List.length_append, leBytes_length])
  rw [Walkable, registered, hn, hnat, hslots]
  exact ⟨⟨hholds, hinside⟩, rfl⟩

theorem PropPayload.returns (p : PropPayload) {s : PtpRuntime} {rest : List UInt8} (reg : Registry)
    (hpayload : s.payload = p.encode ++ rest) :
    fujiRegisterDeviceInfo reg s = .ret (some (⟨⟨UInt32.ofNat p.entries.length,
      some (allocate reg.allocated (p.entries.map PropEntry.desc))⟩,
      reg.allocated + (p.entries.map PropEntry.desc).reduceOption.length⟩, reg.list.freed), s) := by
  obtain ⟨hwalkable, hregistered⟩ := p.registered_eq rest reg
  rw [← hpayload] at hwalkable hregistered
  rw [(fujiRegisterDeviceInfo_readsIf reg).inside hwalkable, hregistered]

end Read

/-! ### The slots -/

/-- The descriptors in the slots that have been written. -/
def FujiPropDescList.blocks (list : FujiPropDescList) : List Block :=
  (list.items.getD []).reduceOption

section Slots

variable {slots : List (Option FujiPropDesc)}

theorem allocate_length (n : ℕ) : (allocate n slots).length = slots.length := by
  induction slots generalizing n with
  | nil => rfl
  | cons slot slots ih => cases slot <;> simp [allocate, ih]

theorem allocate_desc (n : ℕ) :
    (allocate n slots).reduceOption.map Block.desc = slots.reduceOption := by
  induction slots generalizing n with
  | nil => rfl
  | cons slot slots ih => cases slot <;> simp [allocate, ih]

/-- Every descriptor gets a block that was not there before. -/
theorem allocate_id (n : ℕ) :
    (allocate n slots).reduceOption.map Block.id = List.range' n slots.reduceOption.length := by
  induction slots generalizing n with
  | nil => rfl
  | cons slot slots ih => cases slot <;> simp [allocate, ih, List.range'_succ]

theorem map_getElem?_join {α : Type} (xs : List (Option α)) :
    ((List.range xs.length).map fun i => xs[i]?.join) = xs := by
  refine List.ext_getElem (by simp) fun i hi hi' => ?_
  simp [List.getElem?_eq_getElem hi']

/-- If all slots have been written, the pointers in them are the blocks. -/
theorem eq_map_reduceOption {α : Type} {xs : List (Option α)} (hxs : ∀ x ∈ xs, x.isSome) :
    xs = xs.reduceOption.map some := by
  induction xs with
  | nil => rfl
  | cons x xs ih =>
    rw [List.forall_mem_cons] at hxs
    obtain ⟨a, rfl⟩ := Option.isSome_iff_exists.mp hxs.1
    rw [List.reduceOption_cons_of_some, List.map_cons, ← ih hxs.2]

end Slots

/-! ### Sequences of calls -/

/-- A call on a well-formed payload that came to its end. -/
structure RegisterCall where
  props : PropPayload
  before : Registry
  after : Registry
  freed : List (Option Block)
  done : ∃ (s s' : PtpRuntime) (h : History) (rest : List UInt8),
    s.payload = props.encode ++ rest ∧
      Exec (fujiRegisterDeviceInfo before) s h (some (after, freed)) s'

/-- Each call works on the list that the one before it left. -/
def CallsFrom : Registry → List RegisterCall → Prop
  | _, [] => True
  | reg, c :: calls => c.before = reg ∧ CallsFrom c.after calls

/-- After the call the length counts the slots that have been written, which hold the descriptors of
the payload in order, each in a block that the call allocated; the blocks of the call before have
been freed, each once, and nothing else. -/
structure RegisterCall.Keeps (c : RegisterCall) : Prop where
  counts : c.after.list.length.toNat = c.after.list.blocks.length
  holds : c.after.list.blocks.map Block.desc = c.props.entries.filterMap PropEntry.desc
  fresh : c.after.list.blocks.map Block.id =
    List.range' c.before.allocated (c.after.allocated - c.before.allocated)
  frees : c.freed.Perm (c.before.list.blocks.map some)

namespace RegisterCall

variable {c : RegisterCall}

/-- The descriptors in the slots of a call. -/
def slots (c : RegisterCall) : List (Option FujiPropDesc) := c.props.entries.map PropEntry.desc

theorem after_eq (c : RegisterCall) :
    c.after = ⟨⟨UInt32.ofNat c.props.entries.length, some (allocate c.before.allocated c.slots)⟩,
      c.before.allocated + c.slots.reduceOption.length⟩ ∧ c.freed = c.before.list.freed := by
  obtain ⟨s, s', h, rest, hpayload, hdone⟩ := c.done
  obtain ⟨-, hresult, -⟩ := hdone.eq_of_ret (c.props.returns c.before hpayload)
  exact Prod.mk.inj (Option.some.inj hresult)

theorem blocks_after (c : RegisterCall) :
    c.after.list.blocks = (allocate c.before.allocated c.slots).reduceOption := by
  rw [c.after_eq.1]
  rfl

theorem length_after (c : RegisterCall) : c.after.list.length.toNat = c.slots.length := by
  rw [c.after_eq.1, slots, List.length_map]
  exact UInt32.toNat_ofNat_of_lt' c.props.count_lt

theorem length_blocks_after (c : RegisterCall) :
    c.after.list.blocks.length = c.slots.reduceOption.length := by
  rw [c.blocks_after, ← allocate_desc c.before.allocated, List.length_map]

/-- The length counts the slots that have been written if no slot is left out. -/
theorem counts_iff (c : RegisterCall) :
    c.after.list.length.toNat = c.after.list.blocks.length ↔
      ∀ e ∈ c.props.entries, SupportedType e.type := by
  rw [c.length_after, c.length_blocks_after, eq_comm, List.reduceOption_length_eq_iff, slots,
    List.forall_mem_map]
  exact forall₂_congr fun e _ => e.desc_isSome_iff

/-- The pointers that the next call frees are then the blocks. -/
theorem freed_after (hsupported : ∀ e ∈ c.props.entries, SupportedType e.type) :
    c.after.list.freed = c.after.list.blocks.map some := by
  have hsome : (allocate c.before.allocated c.slots).reduceOption.length =
      (allocate c.before.allocated c.slots).length := by
    rw [← c.blocks_after, ← c.counts_iff.mpr hsupported, c.length_after, allocate_length]
  rw [FujiPropDescList.freed, c.length_after, c.blocks_after, c.after_eq.1]
  show ((List.range c.slots.length).map fun i => (allocate c.before.allocated c.slots)[i]?.join) = _
  rw [← allocate_length c.before.allocated, map_getElem?_join]
  exact eq_map_reduceOption (List.reduceOption_length_eq_iff.mp hsome)

theorem keeps_of_supported (hfreed : c.before.list.freed = c.before.list.blocks.map some)
    (hsupported : ∀ e ∈ c.props.entries, SupportedType e.type) : c.Keeps where
  counts := c.counts_iff.mpr hsupported
  holds := by
    rw [c.blocks_after, allocate_desc, slots, List.reduceOption, List.filterMap_map]
    rfl
  fresh := by
    rw [c.blocks_after, allocate_id, c.after_eq.1, Nat.add_sub_cancel_left]
  frees := by rw [c.after_eq.2, hfreed]

end RegisterCall

theorem keeps_of_supported {reg : Registry} {calls : List RegisterCall}
    (hfreed : reg.list.freed = reg.list.blocks.map some) (hcalls : CallsFrom reg calls)
    (hsupported : ∀ c ∈ calls, ∀ e ∈ c.props.entries, SupportedType e.type) :
    ∀ c ∈ calls, c.Keeps := by
  induction calls generalizing reg with
  | nil => simp
  | cons c calls ih =>
    obtain ⟨rfl, hcalls⟩ := hcalls
    rw [List.forall_mem_cons] at hsupported ⊢
    exact ⟨c.keeps_of_supported hfreed hsupported.1,
      ih (c.freed_after hsupported.1) hcalls hsupported.2⟩

/-- **When the list of the properties can be trusted**, over every sequence of calls on well-formed
payloads: if none of them has an entry of a type of which no values are read. -/
theorem fujiRegisterDeviceInfo_keeps_iff {calls : List RegisterCall}
    (hcalls : CallsFrom .new calls) :
    (∀ c ∈ calls, c.Keeps) ↔ ∀ c ∈ calls, ∀ e ∈ c.props.entries, SupportedType e.type :=
  ⟨fun hkeeps c hc => c.counts_iff.mp (hkeeps c hc).counts, keeps_of_supported rfl hcalls⟩

/-- The call on the bytes of a payload. -/
def PropPayload.call (p : PropPayload) (reg : Registry) : RegisterCall where
  props := p
  before := reg
  after := ⟨⟨UInt32.ofNat p.entries.length,
    some (allocate reg.allocated (p.entries.map PropEntry.desc))⟩,
    reg.allocated + (p.entries.map PropEntry.desc).reduceOption.length⟩
  freed := reg.list.freed
  done := ⟨fujiPtpNew.answered p.encode, _, _, [], (List.append_nil _).symm,
    exec_of_ret (p.returns reg (List.append_nil _).symm)⟩

/-- The film simulations and the exposure indices of a camera. -/
def filmAndExposure : PropPayload where
  entries :=
    [⟨0xd001, 3, 1, .words 1 2 [1, 2, 3], [], by show (_ ∨ _) ∧ _ < _; decide⟩,
      ⟨0xd02a, 6, 1, .dwords 200 200 2 [200, 400], [], by show _ ∧ _ < _; decide⟩]
  length_lt := by decide

/-- The properties are registered twice. -/
theorem fujiRegisterDeviceInfo_keeps_twoCalls :
    (filmAndExposure.call .new).Keeps ∧
      (filmAndExposure.call (filmAndExposure.call .new).after).Keeps := by
  have hcalls : CallsFrom .new
      [filmAndExposure.call .new, filmAndExposure.call (filmAndExposure.call .new).after] :=
    ⟨rfl, rfl, trivial⟩
  have hsupported : ∀ e ∈ filmAndExposure.entries, SupportedType e.type := by
    intro e he
    rcases List.mem_pair.mp he with rfl | rfl <;> decide
  have hkeeps := (fujiRegisterDeviceInfo_keeps_iff hcalls).mpr fun c hc => by
    rcases List.mem_pair.mp hc with rfl | rfl <;> exact hsupported
  exact ⟨hkeeps _ List.mem_cons_self, hkeeps _ (List.mem_cons_of_mem _ List.mem_cons_self)⟩

/-- A property with values of one byte, and one with values of two. -/
def byteAndFilm : PropPayload where
  entries :=
    [⟨0x5001, 2, 1, .other [1, 1, 2, 1, 0, 1], [], by show ¬ (_ ∨ _); decide⟩,
      ⟨0xd001, 3, 1, .words 1 2 [1, 2, 3], [], by show (_ ∨ _) ∧ _ < _; decide⟩]
  length_lt := by decide

/-- The slot of the first property is counted and never written, and the next call frees what it
finds in it. -/
theorem fujiRegisterDeviceInfo_unwrittenSlot :
    CallsFrom .new [byteAndFilm.call .new, filmAndExposure.call (byteAndFilm.call .new).after] ∧
      ¬ (byteAndFilm.call .new).Keeps ∧
      (filmAndExposure.call (byteAndFilm.call .new).after).freed =
        none :: (byteAndFilm.call .new).after.list.blocks.map some := by
  refine ⟨⟨rfl, rfl, trivial⟩, fun hkeeps => ?_, by decide⟩
  exact absurd hkeeps.counts (by decide)

end Fuji
