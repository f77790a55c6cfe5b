/-
The strings of `struct DiscoverInfo` (`discovery.c`).

Three scanners fill four buffers of 64 bytes with the tokens behind their keywords.  `snprintf`
leaves a terminated string whatever it copies (`isString_snprintf64`), `strncpy` only one that is
shorter than the buffer (`isString_strncpy64`), and `respond_to_datagram` uses `strncpy`.

`scanRun_terminated_iff` is about any sequence of calls on one struct: the strings are terminated
after each of them just if the last value of each keyword fits, in every datagram.
-/
import LibFuji.Assignments
import LibFuji.Discovery

namespace Fuji

open Assignments Interaction
open Exif (ascii)

namespace Discovery

/-! ### What a scanner finds -/

/-- What a scanner does with a keyword; `none` for a token that is none. -/
abbrev Field : Type := List UInt8 → Option (List UInt8 → DiscoverInfo → DiscoverInfo)

/-- The keywords of a message, each with the token behind it. -/
def found (field : Field) : List (List UInt8) → List (List UInt8 × List UInt8)
  | [] => []
  | cur :: rest =>
    match field cur, rest with
    | none, rest => found field rest
    | some _, [] => []
    | some _, value :: rest => (cur, value) :: found field rest

/-- The value of a keyword is stored. -/
def store (field : Field) (info : DiscoverInfo) (kv : List UInt8 × List UInt8) : DiscoverInfo :=
  match field kv.1 with
  | none => info
  | some set => set kv.2 info

section Found

variable {field : Field} {cur value : List UInt8} {set : List UInt8 → DiscoverInfo → DiscoverInfo}
  {toks : List (List UInt8)}

theorem found_skip (hcur : field cur = none) : found field (cur :: toks) = found field toks := by
  simp [found.eq_def field (cur :: toks), hcur]

theorem found_missing (hcur : field cur = some set) : found field [cur] = [] := by
  simp [found.eq_def field [cur], hcur]

theorem found_value (hcur : field cur = some set) :
    found field (cur :: value :: toks) = (cur, value) :: found field toks := by
  simp [found.eq_def field (cur :: value :: toks), hcur]

/-- A scan stores what it finds. -/
theorem scanTokens_fst (toks : List (List UInt8)) (info : DiscoverInfo) :
    (scanTokens field toks info).1 = (found field toks).foldl (store field) info := by
  induction toks, info using scanTokens.induct field with
  | case1 info => rfl
  | case2 info cur rest hcur ih => rw [scanTokens_skip hcur, found_skip hcur, ih]
  | case3 cur info set hcur => rw [scanTokens_missing hcur, found_missing hcur]; rfl
  | case4 cur info set value rest hcur ih =>
    rw [scanTokens_value hcur, found_value hcur, List.foldl_cons, ih, store, hcur]

theorem field_of_mem_found {kv : List UInt8 × List UInt8} (hkv : kv ∈ found field toks) :
    (field kv.1).isSome = true ∧ kv.2 ∈ toks := by
  induction toks using found.induct field with
  | case1 => cases hkv
  | case2 cur rest hcur ih =>
    rw [found_skip hcur] at hkv
    exact ⟨(ih hkv).1, List.mem_cons_of_mem _ (ih hkv).2⟩
  | case3 cur set hcur =>
    rw [found_missing hcur] at hkv
    cases hkv
  | case4 cur set value rest hcur ih =>
    rw [found_value hcur] at hkv
    rcases List.mem_cons.mp hkv with rfl | hkv
    · exact ⟨by rw [hcur]; rfl, by simp⟩
    · exact ⟨(ih hkv).1, List.mem_cons_of_mem _ (List.mem_cons_of_mem _ (ih hkv).2)⟩

end Found

/-- The bytes of a token are bytes of the text. -/
theorem subset_of_mem_tokens {text t : List UInt8} (ht : t ∈ tokens text) : t ⊆ text := by
  have hsplit {text t : List UInt8} (ht : t ∈ text.splitOnP (· ∈ delimiters)) : t ⊆ text := by
    induction text generalizing t with
    | nil => simpa [List.splitOnP_nil] using ht
    | cons c text ih =>
      rw [List.splitOnP_cons_eq_if_modifyHead] at ht
      obtain ⟨hd, tl, hsplit⟩ := List.exists_cons_of_ne_nil
        (List.splitOnP_ne_nil (· ∈ delimiters) text)
      rw [hsplit] at ht ih
      split_ifs at ht
      · rcases List.mem_cons.mp ht with rfl | ht
        · exact List.nil_subset _
        · exact List.subset_cons_of_subset _ (ih ht)
      · rcases List.mem_cons.mp ht with rfl | ht
        · exact List.cons_subset_cons c (ih List.mem_cons_self)
        · exact List.subset_cons_of_subset _ (ih (List.mem_cons_of_mem _ ht))
  exact hsplit (List.mem_of_mem_filter ht)

/-! ### Terminated strings -/

/-- The buffer holds a terminated string. -/
def IsString (buffer : Vector UInt8 64) : Prop := 0 ∈ buffer.toList

instance (buffer : Vector UInt8 64) : Decidable (IsString buffer) :=
  inferInstanceAs (Decidable (_ ∈ _))

/-- The strings that discovery fills are terminated. -/
structure StringsTerminated (info : DiscoverInfo) : Prop where
  clientName : IsString info.clientName
  cameraIp : IsString info.cameraIp
  cameraName : IsString info.cameraName
  cameraModel : IsString info.cameraModel

/-- `snprintf` terminates. -/
theorem isString_snprintf64 (src : List UInt8) (buffer : Vector UInt8 64) :
    IsString (snprintf64 src buffer) := by
  simp [IsString, snprintf64]

/-- `strncpy` terminates what is shorter than the buffer, and nothing else. -/
theorem isString_strncpy64 {src : List UInt8} (hzero : 0 ∉ src) :
    IsString (strncpy64 src) ↔ src.length < 64 := by
  have hcopy : (strncpy64 src).toList = (src ++ List.replicate 64 0).take 64 := rfl
  rw [IsString, hcopy]
  constructor
  · intro hmem
    by_contra hlong
    rw [List.take_append_of_le_length (by omega)] at hmem
    exact hzero (List.mem_of_mem_take hmem)
  · intro hshort
    rw [List.take_append, List.take_of_length_le hshort.le, List.take_replicate]
    refine List.mem_append_right _ (List.mem_replicate.mpr ⟨?_, rfl⟩)
    omega

/-! ### Datagrams -/

/-- The values of a datagram that are stored: the name `*` is not. -/
def storedValues (greeting : List UInt8) : List (List UInt8 × List UInt8) :=
  (found datagramField (tokens greeting)).filter (· ≠ (ascii "DISCOVER", ascii "*"))

/-- The last value of a keyword that is stored. -/
def lastValue (greeting key : List UInt8) : Option (List UInt8) := last (storedValues greeting) key

/-- The last value of each keyword fits in its buffer. -/
def ValuesFit (greeting : List UInt8) : Prop :=
  ∀ key value, lastValue greeting key = some value → value.length < 64

section Datagram

variable {greeting : List UInt8} {info : DiscoverInfo}

theorem valuesFit_of_tokens (hshort : ∀ t ∈ tokens greeting, t.length < 64) :
    ValuesFit greeting := by
  intro key value hvalue
  obtain ⟨hfound, -⟩ := List.mem_filter.mp (last_mem hvalue)
  exact hshort value (field_of_mem_found hfound).2

theorem store_star : store datagramField info (ascii "DISCOVER", ascii "*") = info := by
  simp [store, datagramField]

/-- What the scan of a datagram stores. -/
theorem scan_datagram : (scanTokens datagramField (tokens greeting) info).1 =
    (storedValues greeting).foldl (store datagramField) info := by
  rw [scanTokens_fst, storedValues, List.foldl_filter]
  refine congrArg (fun step => List.foldl step info _) (funext fun info => funext fun kv => ?_)
  by_cases hkv : kv = (ascii "DISCOVER", ascii "*")
  · rw [hkv, store_star]
    simp
  · simp [hkv]

/-- A value that is stored has a keyword, and is no `*` behind DISCOVER. -/
theorem mem_storedValues {kv : List UInt8 × List UInt8} (hkv : kv ∈ storedValues greeting) :
    (kv.1 = ascii "DISCOVER" ∧ kv.2 ≠ ascii "*" ∨ kv.1 = ascii "DSCADDR") ∧
      kv.2 ∈ tokens greeting := by
  obtain ⟨hfound, hstar⟩ := List.mem_filter.mp hkv
  obtain ⟨hkey, hvalue⟩ := field_of_mem_found hfound
  refine ⟨?_, hvalue⟩
  by_cases hdiscover : kv.1 = ascii "DISCOVER"
  · refine .inl ⟨hdiscover, fun hname => ?_⟩
    simp [Prod.ext_iff, hdiscover, hname] at hstar
  · by_cases haddr : kv.1 = ascii "DSCADDR"
    · exact .inr haddr
    · simp [datagramField, hdiscover, haddr] at hkey

theorem scan_datagram_clientName :
    (scanTokens datagramField (tokens greeting) info).1.clientName =
      ((lastValue greeting (ascii "DISCOVER")).map strncpy64).getD info.clientName := by
  have hne : ascii "DSCADDR" ≠ ascii "DISCOVER" := by decide
  have hstep : ∀ kv ∈ storedValues greeting, ∀ info : DiscoverInfo,
      (store datagramField info kv).clientName =
        if kv.1 = ascii "DISCOVER" then strncpy64 kv.2 else info.clientName := by
    intro kv hkv info
    rcases (mem_storedValues hkv).1 with ⟨hkey, hname⟩ | hkey
    · simp [store, datagramField, hkey, hname]
    · simp [store, datagramField, hkey, hne]
  rw [scan_datagram]
  exact get_foldl hstep info

theorem scan_datagram_cameraIp :
    (scanTokens datagramField (tokens greeting) info).1.cameraIp =
      ((lastValue greeting (ascii "DSCADDR")).map strncpy64).getD info.cameraIp := by
  have hne : ascii "DSCADDR" ≠ ascii "DISCOVER" := by decide
  have hstep : ∀ kv ∈ storedValues greeting, ∀ info : DiscoverInfo,
      (store datagramField info kv).cameraIp =
        if kv.1 = ascii "DSCADDR" then strncpy64 kv.2 else info.cameraIp := by
    intro kv hkv info
    rcases (mem_storedValues hkv).1 with ⟨hkey, hname⟩ | hkey
    · simp [store, datagramField, hkey, hname, hne.symm]
    · simp [store, datagramField, hkey, hne]
  rw [scan_datagram]
  exact get_foldl hstep info

/-- The other two strings are not written. -/
theorem scan_datagram_rest :
    (scanTokens datagramField (tokens greeting) info).1.cameraName = info.cameraName ∧
      (scanTokens datagramField (tokens greeting) info).1.cameraModel = info.cameraModel := by
  rw [scanTokens_fst]
  induction found datagramField (tokens greeting) generalizing info with
  | nil => exact ⟨rfl, rfl⟩
  | cons kv kvs ih =>
    obtain ⟨hname, hmodel⟩ := @ih (store datagramField info kv)
    rw [List.foldl_cons, hname, hmodel, store]
    by_cases hdiscover : kv.1 = ascii "DISCOVER"
    · by_cases hstar : kv.2 = ascii "*" <;> simp [datagramField, hdiscover, hstar]
    · have hne : ascii "DSCADDR" ≠ ascii "DISCOVER" := by decide
      by_cases haddr : kv.1 = ascii "DSCADDR" <;> simp [datagramField, hdiscover, haddr, hne]

/-- **When the scan of a datagram leaves terminated strings.** -/
theorem scan_datagram_terminated_iff (hzero : 0 ∉ greeting) (hinfo : StringsTerminated info) :
    StringsTerminated (scanTokens datagramField (tokens greeting) info).1 ↔ ValuesFit greeting := by
  have hlast {key value : List UInt8} (hvalue : lastValue greeting key = some value) :
      (key = ascii "DISCOVER" ∨ key = ascii "DSCADDR") ∧ 0 ∉ value := by
    obtain ⟨hkey, hmem⟩ := mem_storedValues (last_mem hvalue)
    exact ⟨hkey.imp_left And.left, fun h => hzero (subset_of_mem_tokens hmem h)⟩
  -- one of the two buffers
  have hbuffer {key : List UInt8} {buffer : Vector UInt8 64} (hbuffer : IsString buffer) :
      IsString (((lastValue greeting key).map strncpy64).getD buffer) ↔
        ∀ value, lastValue greeting key = some value → value.length < 64 := by
    cases hvalue : lastValue greeting key with
    | none => simpa using hbuffer
    | some value =>
      rw [Option.map_some, Option.getD_some, isString_strncpy64 (hlast hvalue).2]
      simp
  have hname := @hbuffer (ascii "DISCOVER") _ hinfo.clientName
  have hip := @hbuffer (ascii "DSCADDR") _ hinfo.cameraIp
  rw [← scan_datagram_clientName] at hname
  rw [← scan_datagram_cameraIp] at hip
  constructor
  · intro hterminated key value hvalue
    rcases (hlast hvalue).1 with rfl | rfl
    · exact hname.mp hterminated.clientName value hvalue
    · exact hip.mp hterminated.cameraIp value hvalue
  · intro hfit
    obtain ⟨hrestname, hrestmodel⟩ := @scan_datagram_rest greeting info
    refine ⟨hname.mpr (hfit _), hip.mpr (hfit _), ?_, ?_⟩
    · rw [hrestname]
      exact hinfo.cameraName
    · rw [hrestmodel]
      exact hinfo.cameraModel

end Datagram

/-! ### Sequences of messages -/

/-- A text as it stands in front of its terminator. -/
abbrev CText : Type := { text : List UInt8 // 0 ∉ text }

/-- A call of one of the scanners. -/
inductive ScanCall
  | datagram (greeting : CText)
  | invite (port : ℕ)
  | tether (serverFd : Int)

/-- The function that is called. -/
def ScanCall.run : ScanCall → DiscM Int
  | datagram greeting => respondToDatagram greeting
  | invite port => startInviteServer port
  | tether serverFd => fujiTetherAccept serverFd

/-- Does `strncpy` terminate what the call stores? -/
def ScanCall.Fits : ScanCall → Prop
  | datagram greeting => ValuesFit greeting
  | invite _ => True
  | tether _ => True

/-- The strings are the same. -/
structure SameStrings (info info' : DiscoverInfo) : Prop where
  clientName : info'.clientName = info.clientName
  cameraIp : info'.cameraIp = info.cameraIp
  cameraName : info'.cameraName = info.cameraName
  cameraModel : info'.cameraModel = info.cameraModel

/-- Calls of the scanners one after the other, with the states behind them; what is done in
between writes none of the strings. -/
inductive ScanRun : DiscoveryState → List ScanCall → List DiscoveryState → Prop
  | nil (s : DiscoveryState) : ScanRun s [] []
  | call {s s' : DiscoveryState} {c : ScanCall} {h : SocketHistory} {rc : Int}
      {calls : List ScanCall} {states : List DiscoveryState} (hc : Exec c.run s h rc s')
      (hrest : ScanRun s' calls states) : ScanRun s (c :: calls) (s' :: states)
  | between {s s' : DiscoveryState} {calls : List ScanCall} {states : List DiscoveryState}
      (hsame : SameStrings s.info s'.info) (hrest : ScanRun s' calls states) :
      ScanRun s calls states

section Runs

variable {s s' : DiscoveryState} {h : SocketHistory} {rc : Int}

theorem SameStrings.terminated {info info' : DiscoverInfo} (hsame : SameStrings info info')
    (hinfo : StringsTerminated info) : StringsTerminated info' where
  clientName := by
    rw [hsame.clientName]
    exact hinfo.clientName
  cameraIp := by
    rw [hsame.cameraIp]
    exact hinfo.cameraIp
  cameraName := by
    rw [hsame.cameraName]
    exact hinfo.cameraName
  cameraModel := by
    rw [hsame.cameraModel]
    exact hinfo.cameraModel

/-- Discovery begins with terminated strings. -/
theorem startState_terminated (clientName : List UInt8) :
    StringsTerminated (startState clientName).info where
  clientName := isString_snprintf64 _ _
  cameraIp := by simp [startState, DiscoverInfo.zero, IsString]
  cameraName := by simp [startState, DiscoverInfo.zero, IsString]
  cameraModel := by simp [startState, DiscoverInfo.zero, IsString]

/-! Only the scan of a datagram writes. -/

theorem readString_same (buffer : Vector UInt8 64) :
    Respects (fun _ => True) Eq (readString buffer) :=
  respects_ite (respects_pure _) (respects_bind (respects_call trivial) fun _ => respects_pure _)

theorem connectToNotifyServer_same (ip : List UInt8) (port : ℕ) :
    Respects (fun _ => True) Eq (connectToNotifyServer ip port) := by
  refine respects_bind (respects_call trivial) fun serverFd => respects_ite (respects_pure _) ?_
  refine respects_bind (respects_call trivial) fun _ => ?_
  refine respects_bind (respects_call trivial) fun _ => respects_ite (respects_pure _) ?_
  refine respects_bind (respects_call trivial) fun _ => respects_ite (respects_pure _) ?_
  have hclose : Respects (fun _ => True) Eq
      (do let _ ← ask (.close serverFd); return 0 : DiscM Int) :=
    respects_bind (respects_call trivial) fun _ => respects_pure _
  refine respects_bind (respects_call trivial) fun _ => respects_ite ?_ hclose
  refine respects_bind (respects_call trivial) fun _ => respects_ite (respects_pure _) ?_
  exact respects_ite (respects_pure _) hclose

theorem receiveAck_same (fd : Int) : Respects (fun _ => True) Eq (receiveAck fd) := by
  refine respects_bind (respects_call trivial) fun r => ?_
  cases r with
  | none =>
    exact respects_bind (respects_call trivial) fun _ =>
      respects_bind (respects_call trivial) fun _ => respects_pure _
  | some bytes =>
    exact respects_ite (respects_pure _)
      (respects_ite (respects_bind (respects_call trivial) fun _ => respects_pure _)
        (respects_pure _))

theorem notifyServer_same (fd : Int) : Respects (fun _ => True) Eq (notifyServer fd) := by
  refine respects_bind respects_get fun _ => ?_
  refine respects_bind (readString_same _) fun _ => respects_bind (readString_same _) fun _ => ?_
  refine respects_bind (respects_call trivial) fun _ => respects_ite (respects_pure _) ?_
  refine respects_bind (receiveAck_same fd) fun ack => ?_
  cases ack with
  | none => exact respects_pure _
  | some text => exact respects_ite (respects_pure _) (respects_pure _)

/-- What `respond_to_datagram` leaves is what its scan leaves. -/
theorem respondToDatagram_info {greeting : List UInt8}
    (hrun : Exec (respondToDatagram greeting) s h rc s') :
    s'.info = (scanTokens datagramField (tokens greeting) s.info).1 := by
  have hrest := exec_scanText_bind.mp hrun
  have hsame := (respects_ite (R := Eq) (A := fun _ => True) (respects_pure _)
    (respects_bind respects_get fun _ => respects_bind (readString_same _) fun ip =>
      respects_bind (connectToNotifyServer_same ip _) fun fd => respects_ite (respects_pure _)
        (respects_bind (notifyServer_same fd) fun _ =>
          respects_bind (respects_call trivial) fun _ => respects_pure _))) _ _ _ _ hrest
  rw [← hsame.2]

/-- Terminated strings stay so. -/
def KeepsStrings (s s' : DiscoveryState) : Prop :=
  StringsTerminated s.info → StringsTerminated s'.info

instance : Std.Refl KeepsStrings := ⟨fun _ => id⟩

instance : IsTrans DiscoveryState KeepsStrings := ⟨fun _ _ _ h h' => h' ∘ h⟩

/-- A scan whose values are stored by `snprintf`. -/
theorem scanText_keeps {field : Field} (text : List UInt8)
    (hfield : ∀ cur set, field cur = some set → ∀ value info,
      StringsTerminated info → StringsTerminated (set value info)) :
    Respects (fun _ => True) KeepsStrings (scanText field text) := by
  refine respects_bind respects_get fun s₀ =>
    respects_bind (respects_modify fun s hs => ?_) fun _ => respects_pure _
  change StringsTerminated (scanTokens field (tokens text) s.info).1
  generalize s.info = info at hs ⊢
  induction tokens text, info using scanTokens.induct field with
  | case1 info => exact hs
  | case2 info cur rest hcur ih =>
    rw [scanTokens_skip hcur]
    exact ih hs
  | case3 cur info set hcur =>
    rw [scanTokens_missing hcur]
    exact hs
  | case4 cur info set value rest hcur ih =>
    rw [scanTokens_value hcur]
    exact ih (hfield cur set hcur value info hs)

theorem inviteField_keeps {cur value : List UInt8} {info : DiscoverInfo}
    {set : List UInt8 → DiscoverInfo → DiscoverInfo} (hcur : inviteField cur = some set)
    (hinfo : StringsTerminated info) : StringsTerminated (set value info) := by
  rw [inviteField] at hcur
  split_ifs at hcur <;> cases hcur
  · exact { hinfo with cameraName := isString_snprintf64 _ _ }
  · exact { hinfo with cameraModel := isString_snprintf64 _ _ }

theorem tetherField_keeps {cur value : List UInt8} {info : DiscoverInfo}
    {set : List UInt8 → DiscoverInfo → DiscoverInfo} (hcur : tetherField cur = some set)
    (hinfo : StringsTerminated info) : StringsTerminated (set value info) := by
  rw [tetherField] at hcur
  split_ifs at hcur <;> cases hcur
  · exact { hinfo with cameraIp := isString_snprintf64 _ _ }
  · exact { hinfo with cameraModel := isString_snprintf64 _ _ }
  · exact { hinfo with }

theorem answerInvite_keeps (port : ℕ) (serverFd clientFd : Int) :
    Respects (fun _ => True) KeepsStrings (answerInvite port serverFd clientFd) := by
  refine respects_bind (respects_call trivial) fun r => ?_
  cases r with
  | none => exact respects_pure _
  | some bytes =>
    refine respects_bind (scanText_keeps _ fun _ _ hcur _ _ => inviteField_keeps hcur) fun _ => ?_
    refine respects_ite (respects_pure _) (respects_ite (respects_pure _) ?_)
    refine respects_bind (respects_call trivial) fun _ => respects_ite (respects_pure _) ?_
    exact respects_bind (respects_call trivial) fun _ =>
      respects_bind (respects_call trivial) fun _ => respects_pure _

theorem startInviteServer_keeps (port : ℕ) :
    Respects (fun _ => True) KeepsStrings (startInviteServer port) := by
  refine respects_bind (respects_call trivial) fun _ => respects_ite (respects_pure _) ?_
  refine respects_bind (respects_call trivial) fun _ => ?_
  refine respects_bind (respects_call trivial) fun _ => respects_ite (respects_pure _) ?_
  refine respects_bind (respects_call trivial) fun _ => respects_ite (respects_pure _) ?_
  refine respects_bind (respects_call trivial) fun _ => respects_ite (respects_pure _) ?_
  refine respects_bind (respects_call trivial) fun _ => respects_ite ?_ ?_
  · exact respects_bind (respects_call trivial) fun _ => respects_pure _
  · exact respects_bind (respects_call trivial) fun _ =>
      respects_ite (respects_pure _) (answerInvite_keeps _ _ _)

theorem fujiTetherAccept_keeps (serverFd : Int) :
    Respects (fun _ => True) KeepsStrings (fujiTetherAccept serverFd) := by
  refine respects_bind (respects_call trivial) fun _ => respects_ite (respects_pure _) ?_
  refine respects_bind (respects_call trivial) fun r => ?_
  cases r with
  | none => exact respects_pure _
  | some bytes =>
    refine respects_bind (scanText_keeps _ fun _ _ hcur _ _ => tetherField_keeps hcur) fun _ => ?_
    refine respects_ite (respects_pure _) ?_
    refine respects_bind (respects_call trivial) fun _ => respects_ite (respects_pure _) ?_
    exact respects_bind (respects_call trivial) fun _ => respects_pure _

/-- When one call leaves terminated strings. -/
theorem scanCall_terminated_iff {c : ScanCall} (hs : StringsTerminated s.info)
    (hrun : Exec c.run s h rc s') : StringsTerminated s'.info ↔ c.Fits := by
  cases c with
  | datagram greeting =>
    rw [respondToDatagram_info hrun]
    exact scan_datagram_terminated_iff greeting.2 hs
  | invite port => exact iff_of_true ((startInviteServer_keeps port _ _ _ _ hrun).2 hs) trivial
  | tether serverFd =>
    exact iff_of_true ((fujiTetherAccept_keeps serverFd _ _ _ _ hrun).2 hs) trivial

/-- **When the strings are terminated behind every scan.** -/
theorem scanRun_terminated_iff {calls : List ScanCall} {states : List DiscoveryState}
    (hs : StringsTerminated s.info) (hrun : ScanRun s calls states) :
    (∀ s' ∈ states, StringsTerminated s'.info) ↔ ∀ c ∈ calls, c.Fits := by
  induction hrun with
  | nil s => exact iff_of_true (List.forall_mem_nil _) (List.forall_mem_nil _)
  | call hc hrest ih =>
    have hone := scanCall_terminated_iff hs hc
    rw [List.forall_mem_cons, List.forall_mem_cons, hone]
    exact and_congr_right fun hfits => ih (hone.mpr hfits)
  | between hsame hrest ih => exact ih (hsame.terminated hs)

/-- A datagram from an address of `n` characters. -/
def addressed (n : ℕ) : List UInt8 := ascii "DISCOVER * DSCADDR: " ++ List.replicate n 49

/-- The notify server cannot be reached. -/
def unreachable : (op : SocketOp) → op.Ret
  | .socket _ | .setsockopt _ _ | .bind _ _ _ _ | .listen _ _ _ | .accept _ _ | .inetPton _
  | .send _ _ _ | .sendto _ _ _ _ => (-1 : Int)
  | .getsockname _ => ((-1, []) : Int × List UInt8)
  | .connect _ _ _ _ | .getSocketError _ => ((-1, 0) : Int × Int)
  | .select _ _ _ => ((-1, []) : Int × List Int)
  | .recv _ _ _ => none
  | .checkCancel => false
  | .readBehind => ([] : List UInt8)
  | .extraSocketSettings _ | .close _ | .storeBehind _ => ()

/-- An address of 63 characters is the longest that fits. -/
theorem scanRun_terminated_address : ∃ (greeting : CText) (s' : DiscoveryState),
    greeting.1 = addressed 63 ∧ ScanRun (startState []) [.datagram greeting] [s'] ∧
      StringsTerminated s'.info := by
  have hzero : 0 ∉ addressed 63 := by decide +kernel
  have hshort : ∀ t ∈ tokens (addressed 63), t.length < 64 := by decide +kernel
  have htrace : ((respondToDatagram (addressed 63) (startState [])).trace unreachable).isSome =
      true := by
    decide +kernel
  obtain ⟨⟨h, rc, s'⟩, hsome⟩ := Option.isSome_iff_exists.mp htrace
  have hrun : ScanRun (startState []) [.datagram ⟨addressed 63, hzero⟩] [s'] :=
    .call (Prog.runs_of_trace hsome).1 (.nil s')
  have hfits : ∀ c ∈ [ScanCall.datagram ⟨addressed 63, hzero⟩], c.Fits :=
    List.forall_mem_singleton.mpr (valuesFit_of_tokens hshort)
  exact ⟨_, s', rfl, hrun, (scanRun_terminated_iff (startState_terminated []) hrun).mpr hfits s'
    (List.mem_singleton_self _)⟩

/-- An address of 64 characters fills its buffer. -/
theorem scanRun_not_terminated : ¬ ∀ (clientName : List UInt8) (calls : List ScanCall)
    (states : List DiscoveryState), ScanRun (startState clientName) calls states →
      ∀ s' ∈ states, StringsTerminated s'.info := by
  intro hall
  have hzero : 0 ∉ addressed 64 := by decide +kernel
  have htrace : ((respondToDatagram (addressed 64) (startState [])).trace unreachable).map
      (fun r => decide (IsString r.2.2.info.cameraIp)) = some false := by
    decide +kernel
  obtain ⟨⟨h, rc, s'⟩, hsome, hip⟩ := Option.map_eq_some_iff.mp htrace
  have hrun : ScanRun (startState []) [.datagram ⟨addressed 64, hzero⟩] [s'] :=
    .call (Prog.runs_of_trace hsome).1 (.nil s')
  exact of_decide_eq_false hip (hall [] _ _ hrun s' (List.mem_singleton_self _)).cameraIp

end Runs

end Discovery

end Fuji
