/-
The properties of the camera (`get_val_name` and `fuji_register_device_info` in `data.c`).

The payload is walked entry by entry, each of which says how long it is; what an entry holds is
read behind its start without a look at the end of the payload, which is only compared with the
start of the next entry.

`fujiRegisterDeviceInfo_staysInside_iff` says which payloads are safe: those in which every entry
that the walk comes to either starts behind the end or lies inside with all its fields.
-/
import LibFuji.Ptp

namespace Fuji

open ByteCodec Interaction

/-! ### The code -/

def dpcFilmSimulation : UInt32 := 0xd001
def dpcExposureIndex : UInt32 := 0xd02a

/-- `PTP_DPC_CaptureDelay` and `PTP_DPC_FNumber`, of the PTP standard. -/
def dpcCaptureDelay : UInt32 := 0x5012
def dpcFNumber : UInt32 := 0x5007

/-- `get_val_name`; the properties for which it has no names at all are among the others. -/
def getValName (code val : UInt32) : Option String :=
  if code = dpcCaptureDelay then
    [(0, "off"), (2, "2s"), (4, "10s")].lookup val
  else if code = dpcFilmSimulation then
    [(1, "Standard"), (2, "Vivid"), (3, "Soft"), (4, "4"), (5, "5"), (6, "6"), (7, "7"), (8, "8"),
      (9, "9"), (10, "10"), (11, "11")].lookup val
  else if code = dpcExposureIndex then
    [(0x80000190, "AUTO(400)"), (0x80000320, "AUTO(800)"), (0x80000640, "AUTO(1600)"),
      (0x80000c80, "AUTO(3200)"), (0x80001900, "AUTO(6400)"), (0x40000064, "AUTO(100)"),
      (0xc8, "200"), (0xfa, "250"), (0x140, "320"), (0x190, "400"), (0x1f4, "500"), (0x280, "640"),
      (0x320, "800"), (0x3e8, "1000"), (0x4e2, "1250"), (0x640, "1600"), (0x7d0, "2000"),
      (0x9c4, "2500"), (0xc80, "3200"), (0xfa0, "4000"), (0x1388, "5000"), (0x1900, "6400"),
      (0x40003200, "12800 (?)"), (0x40006400, "25600 (?)"), (0x4000c800, "51200 (?)")].lookup val
  else if code = dpcFNumber then
    [(350, "f/3.5"), (450, "f/4.5"), (530, "f/5.3"), (710, "f/7.1"), (1000, "f/10.0"),
      (1100, "f/11.0"), (1600, "f/16.0")].lookup val
  else none

/-- `struct PropDescValue`. -/
structure PropDescValue where
  valName : Option String
  rawVal : UInt32
  deriving DecidableEq

/-- `struct FujiPropDesc`. -/
structure FujiPropDesc where
  code : UInt16
  nItems : UInt16
  items : List PropDescValue
  deriving DecidableEq

/-- The width of a value. -/
def valueWidth (type : UInt16) : UInt32 := if type = 6 then 4 else 2

/-- A value of a property. -/
def readValue (type : UInt16) (of : UInt32) : PtpM UInt32 :=
  if type = 6 then readU32 of.toNat
  else do
    let val16 ← readU16 of.toNat
    return val16.toUInt32

/-- The values of a property, `n` more. -/
def readItems (code type : UInt16) : ℕ → UInt32 → PtpM (List PropDescValue)
  | 0, _ => return []
  | n + 1, of => do
    let val ← readValue type of
    let items ← readItems code type n (of + valueWidth type)
    return ⟨getValName code.toUInt32 val, val⟩ :: items

/-- The default values of a property, of which it has two if its values are wide; the result is the
offset behind them. -/
def readDefaults (type : UInt16) (of : UInt32) : PtpM UInt32 :=
  if type = 6 then do
    let _ ← readU32 of.toNat
    let _ ← readU32 (of + 4).toNat
    return of + 8
  else do
    let _ ← readU32 of.toNat
    return of + 4

/-- What an entry of one of the types 3, 4 and 6 says of its property. -/
def readDesc (code type : UInt16) (of : UInt32) : PtpM FujiPropDesc := do
  let of ← readDefaults type of
  let of := of + 1
  let nItems ← readU16 of.toNat
  let of := of + 2
  let items ← readItems code type nItems.toNat of
  return ⟨code, nItems, items⟩

/-- The types of which values are read. -/
abbrev SupportedType (type : UInt16) : Prop := type = 3 ∨ type = 4 ∨ type = 6

/-- The loop of `fuji_register_device_info`: one entry, and the offset of the next. -/
def registerEntry (of : UInt32) : PtpM (Option FujiPropDesc × UInt32) := do
  let startOf := of
  let thisLength ← readU32 of.toNat
  let of := of + 4
  let code ← readU16 of.toNat
  let of := of + 2
  let type ← readU16 of.toNat
  let of := of + 2
  let of := of + 1
  if SupportedType type then
    let desc ← readDesc code type of
    return (some desc, startOf + thisLength)
  else return (none, startOf + thisLength)

/-- The loop of `fuji_register_device_info` over the entries, `n` more; without a result where
`ptp_panic` ends the program. -/
def registerEntries : ℕ → UInt32 → PtpM (Option (List (Option FujiPropDesc)))
  | 0, _ => return some []
  | n + 1, of => do
    let s ← get
    if of.toNat > s.payload.length then return none
    else
      let entry ← registerEntry of
      let slots ← registerEntries n entry.2
      return slots.map (entry.1 :: ·)

/-- A `struct FujiPropDesc` on the heap: the block that holds it, and what it holds. -/
structure Block where
  id : ℕ
  desc : FujiPropDesc
  deriving DecidableEq

/-- `struct FujiPropDescList`; nothing has been written to a slot without a block. -/
structure FujiPropDescList where
  length : UInt32
  items : Option (List (Option Block))
  deriving DecidableEq

/-- The list of the properties, and the number of blocks that have been allocated. -/
structure Registry where
  list : FujiPropDescList
  allocated : ℕ
  deriving DecidableEq

/-- The list of a new session. -/
def Registry.new : Registry := ⟨⟨0, none⟩, 0⟩

/-- The descriptors of new slots, each in a block of its own. -/
def allocate : ℕ → List (Option FujiPropDesc) → List (Option Block)
  | _, [] => []
  | n, none :: slots => none :: allocate n slots
  | n, some desc :: slots => some ⟨n, desc⟩ :: allocate (n + 1) slots

/-- The pointers that are freed with the slots of a list. -/
def FujiPropDescList.freed (list : FujiPropDescList) : List (Option Block) :=
  match list.items with
  | none => []
  | some items => (List.range list.length.toNat).map fun i => items[i]?.join

/-- `fuji_register_device_info`, with the pointers that it frees besides that of the old slots. -/
def fujiRegisterDeviceInfo (reg : Registry) : PtpM (Option (Registry × List (Option Block))) := do
  let nEntries ← readU32 0
  let slots ← registerEntries nEntries.toNat 4
  return slots.map fun slots =>
    (⟨⟨nEntries, some (allocate reg.allocated slots)⟩,
      reg.allocated + slots.reduceOption.length⟩, reg.list.freed)

/-! ### Programs that only read -/

section Reads

variable {α β : Type} {s : PtpRuntime} {C D : Prop} {a : α} {b : β}

/-- From the state `s` the program only reads the payload: if `C` holds, from the inside, with the
result `a`, and if not, also from behind it. -/
structure ReadsIf (m : PtpM α) (s : PtpRuntime) (C : Prop) (a : α) : Prop where
  inside : C → m s = .ret (a, s)
  outside : ¬ C → ∃ x, Reaches m s [⟨.outOfBounds x, (0 : UInt8)⟩]

theorem readsIf_pure (a : α) : ReadsIf (pure a) s True a := ⟨fun _ => rfl, fun hC => absurd trivial hC⟩

theorem readsIf_get_bind {f : PtpRuntime → PtpM α} (hf : ReadsIf (f s) s C a) :
    ReadsIf (get >>= f) s C a := ⟨hf.inside, hf.outside⟩

theorem ReadsIf.bind {m : PtpM α} {f : α → PtpM β} (hm : ReadsIf m s C a) (hf : ReadsIf (f a) s D b) :
    ReadsIf (m >>= f) s (C ∧ D) b := by
  refine ⟨fun ⟨hC, hD⟩ => ?_, fun hCD => ?_⟩
  · rw [bind_of_ret (hm.inside hC), hf.inside hD]
  · by_cases hC : C
    · obtain ⟨x, hx⟩ := hf.outside fun hD => hCD ⟨hC, hD⟩
      exact ⟨x, reaches_bind_right (exec_of_ret (hm.inside hC)) hx⟩
    · obtain ⟨x, hx⟩ := hm.outside hC
      exact ⟨x, reaches_bind_left hx⟩

theorem ReadsIf.bind_pure {m : PtpM α} (hm : ReadsIf m s C a) (g : α → β) :
    ReadsIf (m >>= fun a => pure (g a)) s C (g a) :=
  ⟨fun hC => (bind_of_ret (hm.inside hC)).trans rfl, fun hC =>
    (hm.outside hC).imp fun _ hx => reaches_bind_left hx⟩

theorem ReadsIf.congr {m : PtpM α} (hm : ReadsIf m s C a) (hCD : C ↔ D) : ReadsIf m s D a :=
  ⟨fun hD => hm.inside (hCD.mpr hD), fun hD => hm.outside fun hC => hD (hCD.mp hC)⟩

theorem readsIf_ite {c : Prop} [Decidable c] {m m' : PtpM α} {a' : α} (hm : c → ReadsIf m s C a)
    (hm' : ¬ c → ReadsIf m' s D a') :
    ReadsIf (if c then m else m') s (if c then C else D) (if c then a else a') := by
  by_cases hc : c
  · rw [if_pos hc, if_pos hc, if_pos hc]
    exact hm hc
  · rw [if_neg hc, if_neg hc, if_neg hc]
    exact hm' hc

/-- When a program that only reads is safe, whatever the memory behind the payload holds. -/
theorem ReadsIf.staysInside_iff {m : PtpM α} (hm : ReadsIf m s C a) :
    (∀ h, (Reaches m s h → StaysInside h) ∧ ¬ Hangs m s h) ↔ C := by
  constructor
  · intro hsafe
    by_contra hC
    obtain ⟨x, hx⟩ := hm.outside hC
    exact (hsafe _).1 hx _ (List.mem_singleton_self _) x rfl
  · intro hC h
    refine ⟨fun hreach => ?_, fun hhangs => ?_⟩
    · rw [reaches_of_ret (hm.inside hC) hreach]
      simp [StaysInside]
    · rw [Hangs, hm.inside hC] at hhangs
      cases hhangs

end Reads

/-! ### What is read -/

section Payload

variable (payload : List UInt8)

/-- A field of this width lies inside the payload. -/
def FieldInside (of : UInt32) (width : ℕ) : Prop := of.toNat + width ≤ payload.length

def u16At (of : UInt32) : UInt16 := UInt16.ofNat (leNat ((payload.drop of.toNat).take 2))

def u32At (of : UInt32) : UInt32 := UInt32.ofNat (leNat ((payload.drop of.toNat).take 4))

/-- The value at an offset. -/
def valueAt (type : UInt16) (of : UInt32) : UInt32 :=
  if type = 6 then u32At payload of else (u16At payload of).toUInt32

/-- The values from an offset on. -/
def itemsAt (code type : UInt16) : ℕ → UInt32 → List PropDescValue
  | 0, _ => []
  | n + 1, of => ⟨getValName code.toUInt32 (valueAt payload type of), valueAt payload type of⟩ ::
      itemsAt code type n (of + valueWidth type)

def ItemsInside (type : UInt16) : ℕ → UInt32 → Prop
  | 0, _ => True
  | n + 1, of => FieldInside payload of (valueWidth type).toNat ∧ ItemsInside type n (of + valueWidth type)

/-- The offset behind the default values. -/
def behindDefaults (type : UInt16) (of : UInt32) : UInt32 := if type = 6 then of + 8 else of + 4

def DefaultsInside (type : UInt16) (of : UInt32) : Prop :=
  if type = 6 then FieldInside payload of 4 ∧ FieldInside payload (of + 4) 4 else FieldInside payload of 4

def descAt (code type : UInt16) (of : UInt32) : FujiPropDesc :=
  let of := behindDefaults type of + 1
  let nItems := u16At payload of
  ⟨code, nItems, itemsAt payload code type nItems.toNat (of + 2)⟩

/-- The default values lie inside, and so do the number of values and as many values. -/
def DescInside (type : UInt16) (of : UInt32) : Prop :=
  DefaultsInside payload type of ∧ FieldInside payload (behindDefaults type of + 1) 2 ∧
    ItemsInside payload type (u16At payload (behindDefaults type of + 1)).toNat
      (behindDefaults type of + 1 + 2)

/-- The entry at an offset, and the offset of the next. -/
def entryAt (of : UInt32) : Option FujiPropDesc × UInt32 :=
  let type := u16At payload (of + 4 + 2)
  if SupportedType type then
    (some (descAt payload (u16At payload (of + 4)) type (of + 4 + 2 + 2 + 1)), of + u32At payload of)
  else (none, of + u32At payload of)

/-- An entry lies inside with all the fields that its type has. -/
def EntryInside (of : UInt32) : Prop :=
  FieldInside payload of 4 ∧ FieldInside payload (of + 4) 2 ∧ FieldInside payload (of + 4 + 2) 2 ∧
    if SupportedType (u16At payload (of + 4 + 2)) then
      DescInside payload (u16At payload (of + 4 + 2)) (of + 4 + 2 + 2 + 1)
    else True

/-- The entries from an offset on; none where one of them starts behind the end. -/
def entriesAt : ℕ → UInt32 → Option (List (Option FujiPropDesc))
  | 0, _ => some []
  | n + 1, of =>
    if of.toNat > payload.length then none
    else (entriesAt n (entryAt payload of).2).map ((entryAt payload of).1 :: ·)

/-- Every entry that the walk comes to lies inside, up to the first that starts behind the end. -/
def EntriesInside : ℕ → UInt32 → Prop
  | 0, _ => True
  | n + 1, of => payload.length < of.toNat ∨
      EntryInside payload of ∧ EntriesInside n (of + u32At payload of)

/-- The payload can be walked: it has a number of entries, and all that the walk comes to lie
inside. -/
def Walkable : Prop :=
  FieldInside payload 0 4 ∧ EntriesInside payload (u32At payload 0).toNat 4

end Payload

section Reads

variable {s : PtpRuntime} {of : UInt32} {n : ℕ} {code type : UInt16}

theorem readU16_readsIf (of : UInt32) :
    ReadsIf (readU16 of.toNat) s (FieldInside s.payload of 2) (u16At s.payload of) :=
  ⟨fun hin => readU16_eq (readLe_isSome hin), fun hout => readU16_outside (Nat.lt_of_not_le hout)⟩

theorem readU32_readsIf (of : UInt32) :
    ReadsIf (readU32 of.toNat) s (FieldInside s.payload of 4) (u32At s.payload of) :=
  ⟨fun hin => readU32_eq (readLe_isSome hin), fun hout => readU32_outside (Nat.lt_of_not_le hout)⟩

theorem readValue_readsIf (type : UInt16) (of : UInt32) :
    ReadsIf (readValue type of) s (FieldInside s.payload of (valueWidth type).toNat)
      (valueAt s.payload type of) := by
  refine (readsIf_ite (fun _ => readU32_readsIf of) fun _ =>
    (readU16_readsIf of).bind_pure UInt16.toUInt32).congr ?_
  rw [valueWidth]
  split_ifs <;> rfl

theorem readItems_readsIf (code type : UInt16) (n : ℕ) (of : UInt32) :
    ReadsIf (readItems code type n of) s (ItemsInside s.payload type n of)
      (itemsAt s.payload code type n of) := by
  induction n generalizing of with
  | zero => exact readsIf_pure _
  | succ n ih => exact (readValue_readsIf type of).bind ((ih _).bind_pure _)

theorem readDefaults_readsIf (type : UInt16) (of : UInt32) :
    ReadsIf (readDefaults type of) s (DefaultsInside s.payload type of) (behindDefaults type of) :=
  readsIf_ite (fun _ => (readU32_readsIf of).bind ((readU32_readsIf (of + 4)).bind_pure _))
    fun _ => (readU32_readsIf of).bind_pure _

theorem readDesc_readsIf (code type : UInt16) (of : UInt32) :
    ReadsIf (readDesc code type of) s (DescInside s.payload type of)
      (descAt s.payload code type of) :=
  (readDefaults_readsIf type of).bind <| (readU16_readsIf _).bind <|
    (readItems_readsIf code type _ _).bind_pure _

theorem registerEntry_readsIf (of : UInt32) :
    ReadsIf (registerEntry of) s (EntryInside s.payload of) (entryAt s.payload of) :=
  (readU32_readsIf of).bind <| (readU16_readsIf (of + 4)).bind <|
    (readU16_readsIf (of + 4 + 2)).bind <| readsIf_ite
      (fun _ => (readDesc_readsIf _ _ (of + 4 + 2 + 2 + 1)).bind_pure _) fun _ => readsIf_pure _

theorem entryAt_snd (payload : List UInt8) (of : UInt32) :
    (entryAt payload of).2 = of + u32At payload of := by
  rw [entryAt]
  split_ifs <;> rfl

theorem registerEntries_readsIf (n : ℕ) (of : UInt32) :
    ReadsIf (registerEntries n of) s (EntriesInside s.payload n of)
      (entriesAt s.payload n of) := by
  induction n generalizing of with
  | zero => exact readsIf_pure _
  | succ n ih =>
    have hentry : ReadsIf (do
          let entry ← registerEntry of
          let slots ← registerEntries n entry.2
          return slots.map (entry.1 :: ·)) s
        (EntryInside s.payload of ∧ EntriesInside s.payload n (entryAt s.payload of).2)
        ((entriesAt s.payload n (entryAt s.payload of).2).map ((entryAt s.payload of).1 :: ·)) :=
      (registerEntry_readsIf of).bind ((ih _).bind_pure _)
    refine (readsIf_get_bind (readsIf_ite (fun _ => readsIf_pure none) fun _ => hentry)).congr ?_
    rw [EntriesInside, entryAt_snd]
    split_ifs with hof
    · exact (iff_of_true trivial (.inl hof))
    · rw [or_iff_right hof]

/-- What a call returns for a payload that it can walk. -/
def registered (payload : List UInt8) (reg : Registry) : Option (Registry × List (Option Block)) :=
  (entriesAt payload (u32At payload 0).toNat 4).map fun slots =>
    (⟨⟨u32At payload 0, some (allocate reg.allocated slots)⟩,
      reg.allocated + slots.reduceOption.length⟩, reg.list.freed)

theorem fujiRegisterDeviceInfo_readsIf (reg : Registry) :
    ReadsIf (fujiRegisterDeviceInfo reg) s (Walkable s.payload) (registered s.payload reg) :=
  (readU32_readsIf 0).bind <| (registerEntries_readsIf _ 4).bind_pure _

/-- **Which payloads are read only from the inside, and to an end**: those in which every entry that
the walk comes to, following the lengths of the entries, lies inside with all its fields, or
starts behind the end and so ends the program. -/
theorem fujiRegisterDeviceInfo_staysInside_iff (reg : Registry) (s : PtpRuntime) :
    (∀ h, (Reaches (fujiRegisterDeviceInfo reg) s h → StaysInside h) ∧
      ¬ Hangs (fujiRegisterDeviceInfo reg) s h) ↔ Walkable s.payload :=
  (fujiRegisterDeviceInfo_readsIf reg).staysInside_iff

/-- One entry is announced and none follows: its length is read from behind the payload, whose end is
compared with the start of the entry only. -/
theorem fujiRegisterDeviceInfo_missingEntry :
    ¬ ∀ h, (Reaches (fujiRegisterDeviceInfo .new) (fujiPtpNew.answered [1, 0, 0, 0]) h →
      StaysInside h) ∧ ¬ Hangs (fujiRegisterDeviceInfo .new) (fujiPtpNew.answered [1, 0, 0, 0]) h := by
  intro hsafe
  obtain ⟨-, hentries⟩ := (fujiRegisterDeviceInfo_readsIf .new).staysInside_iff.mp hsafe
  have hone : (u32At (fujiPtpNew.answered [1, 0, 0, 0]).payload 0).toNat = 1 := by decide
  rw [hone] at hentries
  rcases hentries with hbehind | ⟨⟨hlength, -⟩, -⟩
  · exact absurd hbehind (by decide)
  · exact absurd (show 4 + 4 ≤ 4 from hlength) (by decide)

end Reads

end Fuji
