/-
The messages of discovery as lines of keys and values.

The scanners know nothing of lines: they see one flat list of tokens.  `tokens_messageText` is what
is left of a message, `found_message` what a scanner finds in it, and `scan_recovers` says that
the values of its keywords arrive in the strings of `struct DiscoverInfo`, whatever the order of
the lines.

The port is an `int`, and is read from a buffer of 16 bytes: only decimal numbers of at most 15
digits below 2^31 arrive (`IsPort`).  What comes over a connection is asked for once, with at most
1023 bytes, and what is behind them is lost (`scan_not_recovers`).
-/
import LibFuji.DiscoveryReceive
import LibFuji.DiscoveryStrings

namespace Fuji

open Assignments Interaction
open Exif (ascii)

namespace Discovery

/-! ### Lines -/

/-- A text without delimiters. -/
structure IsToken (t : List UInt8) : Prop where
  ne_nil : t ≠ []
  not_delimiter : ∀ c ∈ t, c ∉ delimiters

/-- What stands between a key and its value; the first line of a request has a blank there. -/
inductive Separator
  | colon | colonBlank | blank
  deriving DecidableEq, Repr

def Separator.text : Separator → List UInt8
  | colon => ascii ":"
  | colonBlank => ascii ": "
  | blank => ascii " "

/-- How lines end. -/
inductive LineBreak
  | crlf | lf
  deriving DecidableEq, Repr

def LineBreak.text : LineBreak → List UInt8
  | crlf => ascii "\r\n"
  | lf => ascii "\n"

/-- A line of a message. -/
structure HeaderLine where
  key : List UInt8
  separator : Separator
  value : List UInt8
  isToken : IsToken key
  key_zero : 0 ∉ key
  oneLine : ∀ c ∈ value, c ≠ 0 ∧ c ∉ ascii "\r\n"

/-- The text of a line. -/
def HeaderLine.text (l : HeaderLine) : List UInt8 := l.key ++ l.separator.text ++ l.value

/-- The text of a message, with `n` line breaks behind its last line. -/
def messageText (eol : LineBreak) (n : ℕ) (lines : List HeaderLine) : List UInt8 :=
  eol.text.intercalate (lines.map HeaderLine.text) ++ (List.replicate n eol.text).flatten

/-- The first token behind a key. -/
def header (lines : List HeaderLine) (key : List UInt8) : Option (List UInt8) :=
  (lines.find? (·.key = key)).bind fun l => (tokens l.value).head?

/-- A message for a scanner with these keywords: each is the key of at most one line, which has a
value, no other token is a keyword, and the values fit in the strings. -/
structure IsMessage (keywords : List (List UInt8)) (lines : List HeaderLine) : Prop where
  once : ∀ key ∈ keywords, lines.countP (·.key = key) ≤ 1
  valued : ∀ l ∈ lines, l.key ∈ keywords → tokens l.value ≠ []
  other : ∀ l ∈ lines, ∀ t ∈ tokens l.value, t ∉ keywords
  short : ∀ l ∈ lines, ∀ t ∈ tokens l.value, t.length < 64

/-! ### Tokens -/

section Tokens

variable {a b : List UInt8} {d : UInt8}

theorem tokens_nil : tokens [] = [] := rfl

theorem tokens_of_isToken (ha : IsToken a) : tokens a = [a] := by
  rw [tokens, List.splitOnP_eq_singleton (by simpa using ha.not_delimiter)]
  simp [ha.ne_nil]

/-- A delimiter parts two texts. -/
theorem tokens_append_cons (hd : d ∈ delimiters) : tokens (a ++ d :: b) = tokens a ++ tokens b := by
  rw [tokens, List.splitOnP_append_cons a b (by simpa using hd), List.filter_append]
  rfl

theorem tokens_cons (hd : d ∈ delimiters) : tokens (d :: b) = tokens b := by
  have happ := @tokens_append_cons [] b d hd
  rwa [tokens_nil, List.nil_append, List.nil_append] at happ

theorem tokens_lineBreak (eol : LineBreak) :
    tokens (a ++ eol.text ++ b) = tokens a ++ tokens b := by
  rw [List.append_assoc]
  cases eol with
  | crlf =>
    change tokens (a ++ 13 :: 10 :: b) = _
    rw [tokens_append_cons (by decide), tokens_cons (by decide)]
  | lf =>
    change tokens (a ++ 10 :: b) = _
    rw [tokens_append_cons (by decide)]

/-- A line is its key and the tokens of its value. -/
theorem tokens_text (l : HeaderLine) : tokens l.text = l.key :: tokens l.value := by
  have hkey := tokens_of_isToken l.isToken
  rw [HeaderLine.text, List.append_assoc]
  cases l.separator with
  | colon =>
    change tokens (l.key ++ 58 :: l.value) = _
    rw [tokens_append_cons (by decide), hkey, List.singleton_append]
  | colonBlank =>
    change tokens (l.key ++ 58 :: 32 :: l.value) = _
    rw [tokens_append_cons (by decide), tokens_cons (by decide), hkey, List.singleton_append]
  | blank =>
    change tokens (l.key ++ 32 :: l.value) = _
    rw [tokens_append_cons (by decide), hkey, List.singleton_append]

/-- **What is left of a message.** -/
theorem tokens_messageText (eol : LineBreak) (n : ℕ) (lines : List HeaderLine) :
    tokens (messageText eol n lines) = lines.flatMap fun l => l.key :: tokens l.value := by
  have hlines : tokens (eol.text.intercalate (lines.map HeaderLine.text)) =
      lines.flatMap fun l => l.key :: tokens l.value := by
    induction lines with
    | nil => rfl
    | cons l lines ih =>
      cases lines with
      | nil =>
        rw [List.map_singleton, List.intercalate_singleton, tokens_text, List.flatMap_singleton]
      | cons l' lines =>
        rw [List.map_cons, List.map_cons, List.intercalate_cons_cons, tokens_lineBreak,
          tokens_text, List.flatMap_cons, ← ih, List.map_cons]
  rw [messageText]
  induction n with
  | zero => rw [List.replicate_zero, List.flatten_nil, List.append_nil, hlines]
  | succ n ih =>
    rw [List.replicate_succ', List.flatten_concat, ← List.append_assoc]
    have hbreak := @tokens_lineBreak (eol.text.intercalate (lines.map HeaderLine.text) ++
      (List.replicate n eol.text).flatten) [] eol
    rwa [tokens_nil, List.append_nil, List.append_nil, ih] at hbreak

end Tokens

/-! ### Keywords -/

/-- What a scanner stores of a line. -/
def stored (keywords : List (List UInt8)) (l : HeaderLine) : List (List UInt8 × List UInt8) :=
  if l.key ∈ keywords then (tokens l.value).head?.toList.map (l.key, ·) else []

section Scan

variable {field : Field} {keywords : List (List UInt8)} {lines lines' : List HeaderLine}
  {eol : LineBreak} {n : ℕ} {key : List UInt8}

theorem IsMessage.of_cons {l : HeaderLine} (hm : IsMessage keywords (l :: lines)) :
    IsMessage keywords lines where
  once key hkey := le_trans (by simp [List.countP_cons]) (hm.once key hkey)
  valued l' hl' := hm.valued l' (List.mem_cons_of_mem _ hl')
  other l' hl' := hm.other l' (List.mem_cons_of_mem _ hl')
  short l' hl' := hm.short l' (List.mem_cons_of_mem _ hl')

theorem IsMessage.perm (hm : IsMessage keywords lines) (hp : lines.Perm lines') :
    IsMessage keywords lines' where
  once key hkey := by
    rw [← hp.countP_eq]
    exact hm.once key hkey
  valued l hl := hm.valued l (hp.mem_iff.mpr hl)
  other l hl := hm.other l (hp.mem_iff.mpr hl)
  short l hl := hm.short l (hp.mem_iff.mpr hl)

theorem found_append {ts rest : List (List UInt8)} (hts : ∀ t ∈ ts, field t = none) :
    found field (ts ++ rest) = found field rest := by
  induction ts with
  | nil => rfl
  | cons t ts ih =>
    obtain ⟨ht, hts⟩ := List.forall_mem_cons.mp hts
    rw [List.cons_append, found_skip ht, ih hts]

/-- **What a scanner finds in a message.** -/
theorem found_message (hfield : ∀ t, field t = none ↔ t ∉ keywords)
    (hm : IsMessage keywords lines) :
    found field (tokens (messageText eol n lines)) = lines.flatMap (stored keywords) := by
  rw [tokens_messageText]
  induction lines with
  | nil => rfl
  | cons l lines ih =>
    have hother : ∀ t ∈ tokens l.value, field t = none := fun t ht =>
      (hfield t).mpr (hm.other l (List.mem_cons_self ..) t ht)
    rw [List.flatMap_cons, List.flatMap_cons, ← ih hm.of_cons, stored]
    by_cases hkey : l.key ∈ keywords
    · -- the first token of the value is consumed, and the others are skipped
      obtain ⟨set, hset⟩ := Option.ne_none_iff_exists'.mp (mt (hfield l.key).mp (not_not.mpr hkey))
      obtain ⟨value, ts, hvalue⟩ :=
        List.exists_cons_of_ne_nil (hm.valued l (List.mem_cons_self ..) hkey)
      rw [hvalue] at hother ⊢
      rw [List.cons_append, List.cons_append, found_value hset,
        found_append (List.forall_mem_cons.mp hother).2, if_pos hkey]
      rfl
    · rw [List.cons_append, found_skip ((hfield l.key).mpr hkey), found_append hother, if_neg hkey]
      rfl

theorem header_cons_of_eq {l : HeaderLine} (hl : l.key = key) :
    header (l :: lines) key = (tokens l.value).head? := by
  simp [header, hl]

theorem header_cons_of_ne {l : HeaderLine} (hl : l.key ≠ key) :
    header (l :: lines) key = header lines key := by
  simp [header, hl]

theorem filter_stored_of_ne {l : HeaderLine} (hl : l.key ≠ key) :
    (stored keywords l).filter (·.1 = key) = [] := by
  rw [List.filter_eq_nil_iff]
  intro kv hkv
  rw [stored] at hkv
  split_ifs at hkv
  · obtain ⟨value, -, rfl⟩ := List.mem_map.mp hkv
    simpa using hl
  · cases hkv

/-- What is stored for a keyword: the value of its line, if there is one. -/
theorem filter_stored (hm : IsMessage keywords lines) (hkey : key ∈ keywords) :
    (lines.flatMap (stored keywords)).filter (·.1 = key) =
      (header lines key).toList.map (key, ·) := by
  induction lines with
  | nil => rfl
  | cons l lines ih =>
    rw [List.flatMap_cons, List.filter_append]
    by_cases hl : l.key = key
    · -- no other line has the keyword
      have hnone : ∀ l' ∈ lines, l'.key ≠ key := by
        have honce := hm.once key hkey
        rw [List.countP_cons_of_pos (by simpa using hl)] at honce
        simpa using List.countP_eq_zero.mp (Nat.le_zero.mp (Nat.le_of_succ_le_succ honce))
      have hrest : (lines.flatMap (stored keywords)).filter (·.1 = key) = [] := by
        rw [List.filter_flatMap]
        exact List.flatMap_eq_nil_iff.mpr fun l' hl' => filter_stored_of_ne (hnone l' hl')
      rw [hrest, List.append_nil, header_cons_of_eq hl, stored, if_pos (hl ▸ hkey), hl]
      exact List.filter_eq_self.mpr (by simp)
    · rw [filter_stored_of_ne hl, List.nil_append, ih hm.of_cons, header_cons_of_ne hl]

/-- Where the lines stand does not matter. -/
theorem header_perm (hm : IsMessage keywords lines) (hkey : key ∈ keywords)
    (hp : lines.Perm lines') : header lines key = header lines' key := by
  have hfilter : (lines.filter (·.key = key)) = lines'.filter (·.key = key) := by
    have hperm := hp.filter (·.key = key)
    have hlength : (lines.filter (·.key = key)).length ≤ 1 := by
      rw [← List.countP_eq_length_filter]
      exact hm.once key hkey
    rcases hlines : lines.filter (·.key = key) with _ | ⟨l, _ | ⟨l', ls⟩⟩
    · rw [hlines] at hperm ⊢
      exact hperm.nil_eq
    · rw [hlines] at hperm ⊢
      exact (List.perm_singleton.mp hperm.symm).symm
    · rw [hlines] at hlength
      simp at hlength
  rw [header, header, ← List.head?_filter, ← List.head?_filter, hfilter]

/-- What a scan leaves in the part of the struct that one keyword writes. -/
theorem get_scan {β : Type} {get : DiscoverInfo → β} {put : List UInt8 → β → β}
    (hfield : ∀ t, field t = none ↔ t ∉ keywords) (hm : IsMessage keywords lines)
    (hkey : key ∈ keywords)
    (hstep : ∀ info kv, get (store field info kv) =
      if kv.1 = key then put kv.2 (get info) else get info) (info : DiscoverInfo) :
    get (scanTokens field (tokens (messageText eol n lines)) info).1 =
      (header lines key).elim (get info) fun value => put value (get info) := by
  rw [scanTokens_fst, found_message hfield hm,
    get_foldl_filter (fun kv info => hstep info kv), filter_stored hm hkey]
  cases header lines key <;> rfl

/-- What no keyword writes is left. -/
theorem get_scan_of_frame {β : Type} {get : DiscoverInfo → β}
    (hstep : ∀ info kv, get (store field info kv) = get info) (toks : List (List UInt8))
    (info : DiscoverInfo) : get (scanTokens field toks info).1 = get info := by
  rw [scanTokens_fst]
  induction found field toks generalizing info with
  | nil => rfl
  | cons kv kvs ih => rw [List.foldl_cons, ih, hstep]

end Scan

/-! ### Scanners -/

/-- The functions that scan a message. -/
inductive Scanner
  | datagram | invite | tether
  deriving DecidableEq, Repr

namespace Scanner

/-- The keywords that are looked for. -/
def keywords : Scanner → List (List UInt8)
  | datagram => [ascii "DISCOVER", ascii "DSCADDR"]
  | invite => [ascii "DSCNAME", ascii "DSCMODEL"]
  | tether => [ascii "DSC", ascii "CAMERANAME", ascii "DSCPORT"]

def field : Scanner → Field
  | datagram => datagramField
  | invite => inviteField
  | tether => tetherField

/-- A call of the function has scanned the message `m`.  Over a connection the message has come
whole, with one `recv` of at most 1023 bytes. -/
def Scans : Scanner → List UInt8 → DiscoveryState → DiscoveryState → Prop
  | datagram, m, s, s' => ∃ h rc, Exec (respondToDatagram m) s h rc s'
  | invite, m, s, s' => ∃ port h rc fd hm, Exec (startInviteServer port) s h rc s' ∧
      ⟨.recv .inviteClient fd 1023, some ⟨m, hm⟩⟩ ∈ h
  | tether, m, s, s' => ∃ serverFd h rc fd hm, Exec (fujiTetherAccept serverFd) s h rc s' ∧
      ⟨.recv .tetherClient fd 1023, some ⟨m, hm⟩⟩ ∈ h

end Scanner

/-- A text of digits. -/
def IsNumeral (t : List UInt8) : Prop := t ≠ [] ∧ ∀ c ∈ t, 48 ≤ c ∧ c ≤ 57

/-- The number in decimal. -/
def number (t : List UInt8) : ℕ := t.foldl (fun n c => 10 * n + (c.toNat - 48)) 0

/-- A number that fits in the buffer, and in an `int`. -/
def IsPort (t : List UInt8) : Prop := IsNumeral t ∧ t.length ≤ 15 ∧ number t < 2 ^ 31

/-- A string holds the value of its keyword, if the message has one. -/
def StringHolds (old new : Vector UInt8 64) : Option (List UInt8) → Prop
  | none => new = old
  | some value => cText new.toList = value

/-- The port is the value of its keyword, if the message has one, for values of `ports`. -/
def PortHolds (ports : List UInt8 → Prop) (old new : Int) : Option (List UInt8) → Prop
  | none => new = old
  | some value => ports value → new = number value

/-- The values of a message are recovered, and nothing else is written. -/
def Recovered (ports : List UInt8 → Prop) :
    Scanner → List HeaderLine → DiscoverInfo → DiscoverInfo → Prop
  | .datagram, lines, info, info' =>
    -- the name `*` is none
    StringHolds info.clientName info'.clientName
        ((header lines (ascii "DISCOVER")).filter (· ≠ ascii "*")) ∧
      StringHolds info.cameraIp info'.cameraIp (header lines (ascii "DSCADDR")) ∧
      info' = { info with clientName := info'.clientName, cameraIp := info'.cameraIp }
  | .invite, lines, info, info' =>
    StringHolds info.cameraName info'.cameraName (header lines (ascii "DSCNAME")) ∧
      StringHolds info.cameraModel info'.cameraModel (header lines (ascii "DSCMODEL")) ∧
      info' = { info with cameraName := info'.cameraName, cameraModel := info'.cameraModel }
  | .tether, lines, info, info' =>
    StringHolds info.cameraIp info'.cameraIp (header lines (ascii "DSC")) ∧
      StringHolds info.cameraModel info'.cameraModel (header lines (ascii "CAMERANAME")) ∧
      PortHolds ports info.cameraPort info'.cameraPort (header lines (ascii "DSCPORT")) ∧
      info' = { info with
        cameraIp := info'.cameraIp
        cameraModel := info'.cameraModel
        cameraPort := info'.cameraPort }

/-! ### What is stored -/

section Stored

variable {value : List UInt8}

theorem cText_append_zero (hzero : 0 ∉ value) (rest : List UInt8) :
    cText (value ++ 0 :: rest) = value := by
  rw [cText, List.takeWhile_append_of_pos (by
    intro c hc
    simpa using fun h : c = 0 => hzero (h ▸ hc))]
  simp

theorem cText_strncpy64 (hzero : 0 ∉ value) (hshort : value.length < 64) :
    cText (strncpy64 value).toList = value := by
  have hcopy : (strncpy64 value).toList = value ++ 0 :: List.replicate (63 - value.length) 0 := by
    change (value ++ List.replicate 64 0).take 64 = _
    rw [List.take_append, List.take_of_length_le hshort.le, List.take_replicate,
      ← List.replicate_succ]
    congr 2
    omega
  rw [hcopy, cText_append_zero hzero]

theorem cText_snprintf64 (hzero : 0 ∉ value) (hshort : value.length < 64)
    (buffer : Vector UInt8 64) : cText (snprintf64 value buffer).toList = value := by
  have hcopy : (snprintf64 value buffer).toList =
      value ++ 0 :: buffer.toList.drop (value.length + 1) := by
    change value.take 63 ++ 0 :: buffer.toList.drop (value.length + 1) = _
    rw [List.take_of_length_le (by omega)]
  rw [hcopy, cText_append_zero hzero]

/-- A port is read as it is written. -/
theorem toCInt_strtol_of_isPort (hport : IsPort value) :
    toCInt (strtol (value.take 15)) = number value := by
  obtain ⟨⟨hne, hdigits⟩, hlength, hlt⟩ := hport
  have hall : ∀ c ∈ value, (48 ≤ c && c ≤ 57) = true := by simpa using hdigits
  have hnumber : (Nat.ofDigits 10 (digits value).reverse : ℕ) = number value := by
    rw [digits, List.takeWhile_eq_self_iff.mpr hall, Nat.ofDigits_eq_foldr, List.foldr_reverse,
      List.foldl_map, number]
    congr 1
    funext n c
    rw [add_comm]
    rfl
  have hstrtol : strtol value = ((Nat.ofDigits 10 (digits value).reverse : ℕ) : ℤ) := by
    obtain ⟨c, rest, rfl⟩ := List.exists_cons_of_ne_nil hne
    obtain ⟨hlo, hhi⟩ := hdigits c (List.mem_cons_self ..)
    -- the first digit is neither white space nor a sign
    have hspace : isSpace c = false := by
      simp only [isSpace, Bool.or_eq_false_iff, Bool.and_eq_false_iff, decide_eq_false_iff_not]
      grind
    have hsign : c ≠ 45 ∧ c ≠ 43 := by grind
    rw [strtol, List.dropWhile_cons_of_neg (by simp [hspace]), Nat.coe_ofDigits]
    simp [hsign]
  rw [List.take_of_length_le hlength, hstrtol, hnumber, toCInt, Int.bmod_def]
  omega

end Stored

/-! ### What a scan of a message leaves -/

theorem Scanner.field_eq_none_iff (scanner : Scanner) (t : List UInt8) :
    scanner.field t = none ↔ t ∉ scanner.keywords := by
  cases scanner <;> simp only [field, keywords, datagramField, inviteField, tetherField] <;>
    split_ifs <;> simp_all

/-- What a scan of a message leaves. -/
def result : Scanner → List HeaderLine → DiscoverInfo → DiscoverInfo
  | .datagram, lines, info =>
    { info with
      clientName := (header lines (ascii "DISCOVER")).elim info.clientName fun value =>
        if value ≠ ascii "*" then strncpy64 value else info.clientName
      cameraIp := (header lines (ascii "DSCADDR")).elim info.cameraIp strncpy64 }
  | .invite, lines, info =>
    { info with
      cameraName := (header lines (ascii "DSCNAME")).elim info.cameraName fun value =>
        snprintf64 value info.cameraName
      cameraModel := (header lines (ascii "DSCMODEL")).elim info.cameraModel fun value =>
        snprintf64 value info.cameraModel }
  | .tether, lines, info =>
    { info with
      cameraIp := (header lines (ascii "DSC")).elim info.cameraIp fun value =>
        snprintf64 value info.cameraIp
      cameraModel := (header lines (ascii "CAMERANAME")).elim info.cameraModel fun value =>
        snprintf64 value info.cameraModel
      cameraPort := (header lines (ascii "DSCPORT")).elim info.cameraPort fun value =>
        toCInt (strtol (value.take 15)) }

section Result

variable {scanner : Scanner} {lines lines' : List HeaderLine} {eol : LineBreak} {n : ℕ}
  {key value : List UInt8} {info : DiscoverInfo}

theorem zero_notMem_intercalate {sep : List UInt8} {ts : List (List UInt8)} (hsep : 0 ∉ sep)
    (hts : ∀ t ∈ ts, 0 ∉ t) : 0 ∉ sep.intercalate ts := by
  induction ts with
  | nil => exact List.not_mem_nil
  | cons t ts ih =>
    obtain ⟨ht, hts⟩ := List.forall_mem_cons.mp hts
    cases ts with
    | nil => rwa [List.intercalate_singleton]
    | cons t' ts =>
      rw [List.intercalate_cons_cons, List.mem_append, List.mem_append]
      rintro ((hzero | hzero) | hzero)
      · exact ht hzero
      · exact hsep hzero
      · exact ih hts hzero

theorem zero_notMem_messageText : 0 ∉ messageText eol n lines := by
  have htext (l : HeaderLine) : 0 ∉ l.text := by
    have hsep : 0 ∉ l.separator.text := by cases l.separator <;> decide
    have hvalue : 0 ∉ l.value := fun h => (l.oneLine 0 h).1 rfl
    simp [HeaderLine.text, l.key_zero, hsep, hvalue]
  have heol : 0 ∉ eol.text := by cases eol <;> decide
  rw [messageText, List.mem_append, not_or, List.mem_flatten]
  refine ⟨zero_notMem_intercalate heol (by simpa using fun l _ => htext l), ?_⟩
  rintro ⟨t, ht, hzero⟩
  rw [List.eq_of_mem_replicate ht] at hzero
  exact heol hzero

/-- The values of a message fit in the strings. -/
theorem header_fits {keywords : List (List UInt8)} (hm : IsMessage keywords lines)
    (hvalue : header lines key = some value) : 0 ∉ value ∧ value.length < 64 := by
  obtain ⟨l, hl, htok⟩ := Option.bind_eq_some_iff.mp hvalue
  have hmem : value ∈ tokens l.value := List.mem_of_mem_head? htok
  have hline : l ∈ lines := List.mem_of_find?_eq_some hl
  refine ⟨fun hzero => ?_, hm.short l hline value hmem⟩
  exact (l.oneLine 0 (subset_of_mem_tokens hmem hzero)).1 rfl

theorem discoverInfo_ext {info info' : DiscoverInfo}
    (hrest : (info.transport, info.cameraIp, info.cameraName) =
      (info'.transport, info'.cameraIp, info'.cameraName))
    (hrest' : (info.cameraModel, info.clientName, info.cameraPort) =
      (info'.cameraModel, info'.clientName, info'.cameraPort)) : info = info' := by
  cases info
  cases info'
  simp_all

/-! What is stored for each keyword. -/

theorem store_datagram (info : DiscoverInfo) (kv : List UInt8 × List UInt8) :
    store datagramField info kv =
      if kv.1 = ascii "DISCOVER" then
        { info with clientName := if kv.2 ≠ ascii "*" then strncpy64 kv.2 else info.clientName }
      else if kv.1 = ascii "DSCADDR" then { info with cameraIp := strncpy64 kv.2 }
      else info := by
  simp only [store, datagramField]
  split_ifs <;> simp [*]

theorem store_invite (info : DiscoverInfo) (kv : List UInt8 × List UInt8) :
    store inviteField info kv =
      if kv.1 = ascii "DSCNAME" then { info with cameraName := snprintf64 kv.2 info.cameraName }
      else if kv.1 = ascii "DSCMODEL" then
        { info with cameraModel := snprintf64 kv.2 info.cameraModel }
      else info := by
  simp only [store, inviteField]
  split_ifs <;> rfl

theorem store_tether (info : DiscoverInfo) (kv : List UInt8 × List UInt8) :
    store tetherField info kv =
      if kv.1 = ascii "DSC" then { info with cameraIp := snprintf64 kv.2 info.cameraIp }
      else if kv.1 = ascii "CAMERANAME" then
        { info with cameraModel := snprintf64 kv.2 info.cameraModel }
      else if kv.1 = ascii "DSCPORT" then
        { info with cameraPort := toCInt (strtol (kv.2.take 15)) }
      else info := by
  simp only [store, tetherField]
  split_ifs <;> rfl

theorem scan_message_datagram (hm : IsMessage Scanner.datagram.keywords lines) :
    (scanTokens datagramField (tokens (messageText eol n lines)) info).1 =
      result .datagram lines info := by
  have hne : ascii "DSCADDR" ≠ ascii "DISCOVER" := by decide
  have hname := @get_scan datagramField _ lines eol n (ascii "DISCOVER") _ (·.clientName)
    (fun value old => if value ≠ ascii "*" then strncpy64 value else old)
    Scanner.datagram.field_eq_none_iff hm (by decide) (fun info kv => by
      rw [store_datagram]
      split_ifs <;> rfl) info
  have hip := @get_scan datagramField _ lines eol n (ascii "DSCADDR") _ (·.cameraIp)
    (fun value _ => strncpy64 value) Scanner.datagram.field_eq_none_iff hm (by decide)
    (fun info kv => by
      rw [store_datagram]
      split_ifs <;> simp_all only) info
  have hrest := @get_scan_of_frame datagramField _
    (fun info => (info.transport, info.cameraName, info.cameraModel, info.cameraPort))
    (fun info kv => by
      rw [store_datagram]
      split_ifs <;> rfl) (tokens (messageText eol n lines)) info
  simp only [Prod.mk.injEq] at hrest
  obtain ⟨htransport, hcamera, hmodel, hport⟩ := hrest
  refine discoverInfo_ext ?_ ?_
  · rw [htransport, hip, hcamera, result]
  · rw [hmodel, hname, hport, result]

theorem scan_message_invite (hm : IsMessage Scanner.invite.keywords lines) :
    (scanTokens inviteField (tokens (messageText eol n lines)) info).1 =
      result .invite lines info := by
  have hne : ascii "DSCMODEL" ≠ ascii "DSCNAME" := by decide
  have hname := @get_scan inviteField _ lines eol n (ascii "DSCNAME") _ (·.cameraName) snprintf64
    Scanner.invite.field_eq_none_iff hm (by decide) (fun info kv => by
      rw [store_invite]
      split_ifs <;> rfl) info
  have hmodel := @get_scan inviteField _ lines eol n (ascii "DSCMODEL") _ (·.cameraModel)
    snprintf64 Scanner.invite.field_eq_none_iff hm (by decide) (fun info kv => by
      rw [store_invite]
      split_ifs <;> simp_all only) info
  have hrest := @get_scan_of_frame inviteField _
    (fun info => (info.transport, info.cameraIp, info.clientName, info.cameraPort))
    (fun info kv => by
      rw [store_invite]
      split_ifs <;> rfl) (tokens (messageText eol n lines)) info
  simp only [Prod.mk.injEq] at hrest
  obtain ⟨htransport, hip, hclient, hport⟩ := hrest
  refine discoverInfo_ext ?_ ?_
  · rw [htransport, hip, hname, result]
  · rw [hmodel, hclient, hport, result]

theorem scan_message_tether (hm : IsMessage Scanner.tether.keywords lines) :
    (scanTokens tetherField (tokens (messageText eol n lines)) info).1 =
      result .tether lines info := by
  have hne : ascii "CAMERANAME" ≠ ascii "DSC" ∧ ascii "DSCPORT" ≠ ascii "DSC" ∧
      ascii "DSCPORT" ≠ ascii "CAMERANAME" := by decide
  have hip := @get_scan tetherField _ lines eol n (ascii "DSC") _ (·.cameraIp) snprintf64
    Scanner.tether.field_eq_none_iff hm (by decide) (fun info kv => by
      rw [store_tether]
      split_ifs <;> rfl) info
  have hmodel := @get_scan tetherField _ lines eol n (ascii "CAMERANAME") _ (·.cameraModel)
    snprintf64 Scanner.tether.field_eq_none_iff hm (by decide) (fun info kv => by
      rw [store_tether]
      split_ifs <;> simp_all only) info
  have hport := @get_scan tetherField _ lines eol n (ascii "DSCPORT") _ (·.cameraPort)
    (fun value _ => toCInt (strtol (value.take 15))) Scanner.tether.field_eq_none_iff hm
    (by decide) (fun info kv => by
      rw [store_tether]
      split_ifs <;> simp_all only) info
  have hrest := @get_scan_of_frame tetherField _
    (fun info => (info.transport, info.cameraName, info.clientName))
    (fun info kv => by
      rw [store_tether]
      split_ifs <;> rfl) (tokens (messageText eol n lines)) info
  simp only [Prod.mk.injEq] at hrest
  obtain ⟨htransport, hname, hclient⟩ := hrest
  refine discoverInfo_ext ?_ ?_
  · rw [htransport, hip, hname, result]
  · rw [hmodel, hclient, hport, result]

/-- **A scan of a message.** -/
theorem scan_message (hm : IsMessage scanner.keywords lines) :
    (scanTokens scanner.field (tokens (messageText eol n lines)) info).1 =
      result scanner lines info := by
  cases scanner with
  | datagram => exact scan_message_datagram hm
  | invite => exact scan_message_invite hm
  | tether => exact scan_message_tether hm

/-- The order of the lines does not matter. -/
theorem result_perm (hm : IsMessage scanner.keywords lines) (hp : lines.Perm lines') :
    result scanner lines info = result scanner lines' info := by
  have hheader : ∀ key ∈ scanner.keywords, header lines key = header lines' key :=
    fun key hkey => header_perm hm hkey hp
  cases scanner <;> simp only [Scanner.keywords, List.forall_mem_cons] at hheader
  · rw [result, result, hheader.1, hheader.2.1]
  · rw [result, result, hheader.1, hheader.2.1]
  · rw [result, result, hheader.1, hheader.2.1, hheader.2.2.1]

/-! ### What is recovered -/

theorem stringHolds_elim {keywords : List (List UInt8)} {old : Vector UInt8 64}
    (hm : IsMessage keywords lines) :
    StringHolds old ((header lines key).elim old fun value => snprintf64 value old)
      (header lines key) := by
  cases hvalue : header lines key with
  | none => rfl
  | some value =>
    obtain ⟨hzero, hshort⟩ := header_fits hm hvalue
    exact cText_snprintf64 hzero hshort old

/-- A scan recovers the values. -/
theorem result_recovered (hm : IsMessage scanner.keywords lines) :
    Recovered IsPort scanner lines info (result scanner lines info) := by
  cases scanner with
  | datagram =>
    refine ⟨?_, ?_, rfl⟩
    · rw [result]
      cases hvalue : header lines (ascii "DISCOVER") with
      | none => rfl
      | some value =>
        obtain ⟨hzero, hshort⟩ := header_fits hm hvalue
        by_cases hstar : value = ascii "*"
        · rw [Option.filter_some, if_neg (by simpa using hstar), Option.elim_some,
            if_neg (not_not.mpr hstar)]
          rfl
        · rw [Option.filter_some, if_pos (by simpa using hstar), Option.elim_some, if_pos hstar]
          exact cText_strncpy64 hzero hshort
    · rw [result]
      cases hvalue : header lines (ascii "DSCADDR") with
      | none => rfl
      | some value =>
        obtain ⟨hzero, hshort⟩ := header_fits hm hvalue
        exact cText_strncpy64 hzero hshort
  | invite => exact ⟨stringHolds_elim hm, stringHolds_elim hm, rfl⟩
  | tether =>
    refine ⟨stringHolds_elim hm, stringHolds_elim hm, ?_, rfl⟩
    rw [result]
    cases header lines (ascii "DSCPORT") with
    | none => rfl
    | some value => exact toCInt_strtol_of_isPort

end Result

/-! ### The functions -/

/-- Nothing is received. -/
def NotRecv (op : SocketOp) : Prop := ∀ u fd size, op ≠ .recv u fd size

section Scans

variable {s s' : DiscoveryState} {h : SocketHistory} {rc : Int} {m : List UInt8}
  {hle : m.length ≤ 1023} {u : Sock} {fd fd' : Int}

/-- What a function leaves that scans a text and then receives no other. -/
theorem scanText_info {field : Field} {text : List UInt8} {f : Bool → DiscM Int}
    (hf : ∀ complete, Respects NotRecv Eq (f complete))
    (hrun : Exec (scanText field text >>= f) s h rc s') :
    (∀ e ∈ h, NotRecv e.1) ∧ s'.info = (scanTokens field (tokens text) s.info).1 := by
  obtain ⟨hnone, hsame⟩ := hf _ _ _ _ _ (exec_scanText_bind.mp hrun)
  exact ⟨hnone, by rw [← hsame]⟩

theorem acceptInvite_info {port : ℕ} {serverFd clientFd : Int} {text : List UInt8}
    (hrun : Exec (acceptInvite port serverFd clientFd text) s h rc s') :
    (∀ e ∈ h, NotRecv e.1) ∧ s'.info = (scanTokens inviteField (tokens text) s.info).1 := by
  refine scanText_info (fun _ => ?_) hrun
  have hsend (data : List UInt8) : NotRecv (.send .inviteClient clientFd data) := by simp [NotRecv]
  have hclose (fd : Int) : NotRecv (.close fd) := by simp [NotRecv]
  refine respects_ite (respects_pure _) (respects_ite (respects_pure _) ?_)
  refine respects_bind (respects_call (hsend _)) fun _ => respects_ite (respects_pure _) ?_
  exact respects_bind (respects_call (hclose _)) fun _ =>
    respects_bind (respects_call (hclose _)) fun _ => respects_pure _

theorem acceptTether_info {clientFd : Int} {text : List UInt8}
    (hrun : Exec (acceptTether clientFd text) s h rc s') :
    (∀ e ∈ h, NotRecv e.1) ∧ s'.info = (scanTokens tetherField (tokens text) s.info).1 := by
  refine scanText_info (fun _ => ?_) hrun
  have hsend (data : List UInt8) : NotRecv (.send .tetherClient clientFd data) := by simp [NotRecv]
  have hclose (fd : Int) : NotRecv (.close fd) := by simp [NotRecv]
  refine respects_ite (respects_pure _) ?_
  refine respects_bind (respects_call (hsend _)) fun _ => respects_ite (respects_pure _) ?_
  exact respects_bind (respects_call (hclose _)) fun _ => respects_pure _

/-- The message is the one that has been received. -/
theorem receiveText_info {field : Field} {f : List UInt8 → DiscM Int}
    (hf : ∀ {text s h rc s'}, Exec (f text) s h rc s' →
      (∀ e ∈ h, NotRecv e.1) ∧ s'.info = (scanTokens field (tokens text) s.info).1)
    (hrun : Exec (receiveText u fd' >>= afterReceive f) s h rc s')
    (hrecv : ⟨.recv u fd 1023, some ⟨m, hle⟩⟩ ∈ h) :
    s'.info = (scanTokens field (tokens (cText m)) s.info).1 := by
  obtain ⟨h₁, text, s₁, h₂, rfl, hread, hrest⟩ := exec_of_bind hrun
  obtain ⟨r, t, rfl, ht⟩ := exec_call_bind.mp hread
  cases r with
  | none =>
    cases ht
    cases hrest
    simp at hrecv
  | some bytes =>
    cases ht
    obtain ⟨hnone, hinfo⟩ := hf hrest
    rcases List.mem_append.mp hrecv with hrecv | hrecv
    · cases List.mem_singleton.mp hrecv
      exact hinfo
    · exact absurd rfl (hnone _ hrecv _ _ _)

theorem startInviteServer_info {port : ℕ} (hrun : Exec (startInviteServer port) s h rc s')
    (hrecv : ⟨.recv .inviteClient fd 1023, some ⟨m, hle⟩⟩ ∈ h) :
    s'.info = (scanTokens inviteField (tokens (cText m)) s.info).1 := by
  -- the calls in front of the message
  obtain ⟨serverFd, h₁, rfl, hrun₁⟩ := exec_call_bind.mp hrun
  by_cases hfd : (serverFd : Int) < 0
  · rw [if_pos hfd] at hrun₁
    cases hrun₁
    simp at hrecv
  rw [if_neg hfd] at hrun₁
  obtain ⟨_, h₂, rfl, hrun₂⟩ := exec_call_bind.mp hrun₁
  obtain ⟨opt, h₃, rfl, hrun₃⟩ := exec_call_bind.mp hrun₂
  by_cases hopt : (opt : Int) < 0
  · rw [if_pos hopt] at hrun₃
    cases hrun₃
    simp at hrecv
  rw [if_neg hopt] at hrun₃
  obtain ⟨bound, h₄, rfl, hrun₄⟩ := exec_call_bind.mp hrun₃
  by_cases hbound : (bound : Int) < 0
  · rw [if_pos hbound] at hrun₄
    cases hrun₄
    simp at hrecv
  rw [if_neg hbound] at hrun₄
  obtain ⟨listening, h₅, rfl, hrun₅⟩ := exec_call_bind.mp hrun₄
  by_cases hlisten : (listening : Int) < 0
  · rw [if_pos hlisten] at hrun₅
    cases hrun₅
    simp at hrecv
  rw [if_neg hlisten] at hrun₅
  obtain ⟨ready, h₆, rfl, hrun₆⟩ := exec_call_bind.mp hrun₅
  by_cases hready : (ready : Int × List Int).1 ≤ 0
  · rw [if_pos hready] at hrun₆
    obtain ⟨_, h₇, rfl, hrun₇⟩ := exec_call_bind.mp hrun₆
    cases hrun₇
    simp at hrecv
  rw [if_neg hready] at hrun₆
  obtain ⟨clientFd, h₇, rfl, hrun₇⟩ := exec_call_bind.mp hrun₆
  by_cases hclient : (clientFd : Int) < 0
  · rw [if_pos hclient] at hrun₇
    cases hrun₇
    simp at hrecv
  rw [if_neg hclient, answerInvite_eq] at hrun₇
  exact receiveText_info acceptInvite_info hrun₇ (by simpa using hrecv)

theorem fujiTetherAccept_info {serverFd : Int} (hrun : Exec (fujiTetherAccept serverFd) s h rc s')
    (hrecv : ⟨.recv .tetherClient fd 1023, some ⟨m, hle⟩⟩ ∈ h) :
    s'.info = (scanTokens tetherField (tokens (cText m)) s.info).1 := by
  rw [fujiTetherAccept_eq] at hrun
  obtain ⟨clientFd, h₁, rfl, hrun₁⟩ := exec_call_bind.mp hrun
  by_cases hclient : (clientFd : Int) < 0
  · rw [if_pos hclient] at hrun₁
    cases hrun₁
    simp at hrecv
  rw [if_neg hclient] at hrun₁
  exact receiveText_info acceptTether_info hrun₁ (by simpa using hrecv)

/-- What a function leaves is what its scan leaves. -/
theorem Scanner.Scans.info {scanner : Scanner} (hscans : scanner.Scans m s s') (hzero : 0 ∉ m) :
    s'.info = (scanTokens scanner.field (tokens m) s.info).1 := by
  cases scanner with
  | datagram =>
    obtain ⟨h, rc, hrun⟩ := hscans
    exact respondToDatagram_info hrun
  | invite =>
    obtain ⟨port, h, rc, fd, hle, hrun, hrecv⟩ := hscans
    rw [startInviteServer_info hrun hrecv, cText_eq_self_iff.mpr hzero]
    rfl
  | tether =>
    obtain ⟨serverFd, h, rc, fd, hle, hrun, hrecv⟩ := hscans
    rw [fujiTetherAccept_info hrun hrecv, cText_eq_self_iff.mpr hzero]
    rfl

/-- **The scanners recover the values of a message, whatever the order of its lines**, if it has
come whole. -/
theorem scan_recovers {scanner : Scanner} {lines : List HeaderLine} {eol : LineBreak} {n : ℕ}
    (hm : IsMessage scanner.keywords lines)
    (hscans : scanner.Scans (messageText eol n lines) s s') :
    Recovered IsPort scanner lines s.info s'.info ∧
      ∀ {lines' eol' n' s''}, lines.Perm lines' → scanner.Scans (messageText eol' n' lines') s s'' →
        s''.info = s'.info := by
  have hinfo : s'.info = result scanner lines s.info := by
    rw [hscans.info zero_notMem_messageText, scan_message hm]
  rw [hinfo]
  refine ⟨result_recovered hm, fun hp hscans' => ?_⟩
  have hm' := hm.perm hp
  rw [hscans'.info zero_notMem_messageText, scan_message hm', result_perm hm hp]

/-- The datagram of a camera that looks for `desktop`. -/
def discoverMessage : List HeaderLine := [
  { key := ascii "DISCOVER", separator := .blank, value := ascii "desktop HTTP/1.1"
    isToken := ⟨by decide, by decide +kernel⟩, key_zero := by decide
    oneLine := by decide +kernel },
  { key := ascii "MX", separator := .colon, value := ascii "3"
    isToken := ⟨by decide, by decide +kernel⟩, key_zero := by decide
    oneLine := by decide +kernel },
  { key := ascii "HOST", separator := .colon, value := ascii "192.168.1.255:|"
    isToken := ⟨by decide, by decide +kernel⟩, key_zero := by decide
    oneLine := by decide +kernel },
  { key := ascii "DSCADDR", separator := .colon, value := ascii "192.168.1.32"
    isToken := ⟨by decide, by decide +kernel⟩, key_zero := by decide
    oneLine := by decide +kernel }]

/-- Its name and address arrive. -/
theorem scan_recovers_discoverMessage : ∃ s',
    Scanner.datagram.Scans (messageText .crlf 1 discoverMessage) (startState []) s' ∧
      cText s'.info.clientName.toList = ascii "desktop" ∧
      cText s'.info.cameraIp.toList = ascii "192.168.1.32" := by
  have hm : IsMessage Scanner.datagram.keywords discoverMessage :=
    ⟨by decide +kernel, by decide +kernel, by decide +kernel, by decide +kernel⟩
  have htrace : ((respondToDatagram (messageText .crlf 1 discoverMessage) (startState [])).trace
      unreachable).isSome = true := by
    decide +kernel
  obtain ⟨⟨h, rc, s'⟩, hsome⟩ := Option.isSome_iff_exists.mp htrace
  have hscans : Scanner.datagram.Scans (messageText .crlf 1 discoverMessage) (startState []) s' :=
    ⟨h, rc, (Prog.runs_of_trace hsome).1⟩
  obtain ⟨hname, hip, -⟩ := (scan_recovers hm hscans).1
  have hdiscover : (header discoverMessage (ascii "DISCOVER")).filter (· ≠ ascii "*") =
      some (ascii "desktop") := by
    decide +kernel
  have haddr : header discoverMessage (ascii "DSCADDR") = some (ascii "192.168.1.32") := by
    decide +kernel
  rw [hdiscover] at hname
  rw [haddr] at hip
  exact ⟨s', hscans, hname, hip⟩

/-- A camera whose port is no `int`. -/
def portMessage : List HeaderLine := [
  { key := ascii "DSCPORT", separator := .colon, value := ascii "99999999999"
    isToken := ⟨by decide, by decide +kernel⟩, key_zero := by decide
    oneLine := by decide +kernel }]

/-- A line that no scanner looks for. -/
def paddingLine : HeaderLine where
  key := ascii "X"
  separator := .colon
  value := List.replicate 60 97
  isToken := ⟨by decide, by decide +kernel⟩
  key_zero := by decide
  oneLine := by decide +kernel

/-- A camera whose address stands behind the first 1023 bytes. -/
def longMessage : List HeaderLine := List.replicate 17 paddingLine ++ [
  { key := ascii "DSC", separator := .colonBlank, value := ascii "192.168.1.32"
    isToken := ⟨by decide, by decide +kernel⟩, key_zero := by decide
    oneLine := by decide +kernel }]

/-- A tether server that receives this text, and succeeds. -/
theorem fujiTetherAccept_run {text : List UInt8} (hle : text.length ≤ 1023)
    (hcomplete : (scanTokens tetherField (tokens (cText text)) (startState []).info).2 ≠ false) :
    ∃ h s', Exec (fujiTetherAccept 5) (startState []) h 0 s' ∧
      ⟨.recv .tetherClient 7 1023, some ⟨text, hle⟩⟩ ∈ h :=
  ⟨_, _, exec_call_bind.mpr ⟨(7 : Int), _, rfl, exec_ite_neg (by decide)
    (exec_call_bind.mpr ⟨some ⟨text, hle⟩, _, rfl,
      exec_scanText_bind.mpr (exec_ite_neg hcomplete
        (exec_call_bind.mpr ⟨(18 : Int), _, rfl, exec_ite_neg (by decide)
          (exec_call_bind.mpr ⟨(), _, rfl, exec_pure _⟩)⟩))⟩)⟩, by simp⟩

/-- The port of the one camera does not arrive, and neither does the address of the other. -/
theorem scan_not_recovers :
    (¬ ∀ (scanner : Scanner) (lines : List HeaderLine) (eol : LineBreak) (n : ℕ)
      (s s' : DiscoveryState), IsMessage scanner.keywords lines →
        scanner.Scans (messageText eol n lines) s s' →
          Recovered IsNumeral scanner lines s.info s'.info) ∧
    ¬ ∀ (lines : List HeaderLine) (eol : LineBreak) (n : ℕ) (serverFd fd : Int)
      (s s' : DiscoveryState) (h : SocketHistory), IsMessage Scanner.tether.keywords lines →
        Exec (fujiTetherAccept serverFd) s h 0 s' →
        ⟨.recv .tetherClient fd 1023,
          some ⟨(messageText eol n lines).take 1023, List.length_take_le _ _⟩⟩ ∈ h →
          Recovered IsPort .tether lines s.info s'.info := by
  constructor
  · intro hall
    have hm : IsMessage Scanner.tether.keywords portMessage :=
      ⟨by decide +kernel, by decide +kernel, by decide +kernel, by decide +kernel⟩
    obtain ⟨h, s', hrun, hrecv⟩ := @fujiTetherAccept_run (messageText .crlf 0 portMessage)
      (by decide +kernel) (by decide +kernel)
    have hscans : Scanner.tether.Scans (messageText .crlf 0 portMessage) (startState []) s' :=
      ⟨5, h, 0, 7, _, hrun, hrecv⟩
    obtain ⟨-, -, hport, -⟩ := hall _ _ _ _ _ _ hm hscans
    have hheader : header portMessage (ascii "DSCPORT") = some (ascii "99999999999") := by
      decide +kernel
    have hresult : (result .tether portMessage (startState []).info).cameraPort = 1215752191 := by
      decide +kernel
    have hnumber : number (ascii "99999999999") = 99999999999 := by decide
    rw [hheader, hscans.info zero_notMem_messageText, scan_message hm, hresult] at hport
    have heq := hport ⟨by decide, by decide +kernel⟩
    omega
  · intro hall
    have hm : IsMessage Scanner.tether.keywords longMessage :=
      ⟨by decide +kernel, by decide +kernel, by decide +kernel, by decide +kernel⟩
    obtain ⟨h, s', hrun, hrecv⟩ := @fujiTetherAccept_run ((messageText .crlf 0 longMessage).take 1023)
      (List.length_take_le _ _) (by decide +kernel)
    obtain ⟨haddress, -⟩ := hall _ _ _ _ _ _ _ _ hm hrun hrecv
    have hheader : header longMessage (ascii "DSC") = some (ascii "192.168.1.32") := by
      decide +kernel
    have hlost : cText (scanTokens tetherField (tokens (cText ((messageText .crlf 0
        longMessage).take 1023))) (startState []).info).1.cameraIp.toList = [] := by
      decide +kernel
    rw [hheader, fujiTetherAccept_info hrun hrecv] at haddress
    exact absurd (hlost.symm.trans haddress) (by decide)

end Scans

end Discovery

end Fuji
