/-
Files in UTF-8 and UTF-16, and the reader of profiles on top of the parser.

`Encoding.file` is a Unicode text as the bytes of a file; a file in UTF-16, of either order of
the bytes, begins with its mark.

* `buffer_file` — `ezxml_str2utf8` makes UTF-8 of it;
* `ezxmlParseStr_encoding` — so the encoding makes no difference to what is parsed, be the text
  well formed or not;
* `ezxmlParseStr_print` — **every text is read back** as the tree it stands for;
* `fpParseFp1Bytes_file` — the reader of profiles gets the document that a text stands for,
  whatever its encoding, its layout and the ways its characters are written.
-/
import LibFuji.EzxmlText
import LibFuji.XmlAccept

namespace Fuji

namespace Ezxml

/-! ### UTF-8 -/

theorem shiftLeft_or {i x : ℕ} (a : ℕ) (hx : x < 2 ^ i) : a <<< i ||| x = 2 ^ i * a + x := by
  rw [Nat.shiftLeft_eq, Nat.mul_comm, Nat.two_pow_add_eq_or_of_lt hx]

/-- A byte of the payload. -/
theorem payload_eq (x : ℕ) : 0x80 ||| (x &&& 0x3f) = x % 0x40 + 0x80 := by
  have hx : x % 2 ^ 6 < 2 ^ 7 := (Nat.mod_lt x (by decide)).trans (by decide)
  have hor := shiftLeft_or 1 hx
  rw [Nat.and_two_pow_sub_one_eq_mod x 6]
  show 1 <<< 7 ||| x % 2 ^ 6 = _
  omega

/-- The bits of a character, counted by the loop of the source, give the length of its
payload. -/
theorem size_payload {c k : ℕ} (hk : 1 ≤ k) (hlo : 2 ^ (5 * k + 1) ≤ c ∨ k = 1 ∧ 2 ^ 7 ≤ c)
    (hhi : c < 2 ^ (5 * k + 6)) : (c.size - 2) / 5 = k := by
  have hle : c.size ≤ 5 * k + 6 := Nat.size_le.mpr hhi
  have hlt : 5 * k + 1 < c.size := by
    rcases hlo with h | ⟨rfl, h⟩
    · exact Nat.lt_size.mpr h
    · exact (by decide : 5 * 1 + 1 < 7).trans (Nat.lt_size.mpr h)
  omega

theorem utf8Bytes_char (c : Char) :
    utf8Bytes c.toNat = (String.utf8EncodeChar c).map UInt8.toNat := by
  have hc : c.toNat < 0x110000 := by
    have hvalid := c.valid
    simp only [UInt32.isValidChar, Nat.isValidChar] at hvalid
    show c.val.toNat < 0x110000
    omega
  have hval : c.val.toNat = c.toNat := rfl
  generalize c.toNat = n at hc hval
  rw [utf8Bytes, String.utf8EncodeChar, hval]
  simp only
  by_cases h₁ : n ≤ 0x7f
  · rw [if_pos (by omega), if_pos h₁]
    simp [Nat.mod_eq_of_lt (by omega : n < 256)]
  rw [if_neg (by omega), if_neg h₁]
  by_cases h₂ : n ≤ 0x7ff
  · rw [size_payload le_rfl (.inr ⟨rfl, by omega⟩) (by omega), if_pos h₂,
      shiftLeft_or _ (by rw [Nat.shiftRight_eq_div_pow]; omega)]
    simp [payload_eq, Nat.shiftRight_eq_div_pow, List.range_succ]
    omega
  rw [if_neg h₂]
  by_cases h₃ : n ≤ 0xffff
  · rw [size_payload (by decide : 1 ≤ 2) (.inl (by omega)) (by omega), if_pos h₃,
      shiftLeft_or _ (by rw [Nat.shiftRight_eq_div_pow]; omega)]
    simp [payload_eq, Nat.shiftRight_eq_div_pow, List.range_succ]
    omega
  · rw [size_payload (by decide : 1 ≤ 3) (.inl (by omega)) (by omega), if_neg h₃,
      shiftLeft_or _ (by rw [Nat.shiftRight_eq_div_pow]; omega)]
    simp [payload_eq, Nat.shiftRight_eq_div_pow, List.range_succ]
    omega

/-! ### UTF-16 -/

/-- The units of a character in UTF-16. -/
def utf16Units (c : Char) : List ℕ :=
  if c.toNat < 0x10000 then [c.toNat]
  else [0xd800 + (c.toNat - 0x10000) / 0x400, 0xdc00 + (c.toNat - 0x10000) % 0x400]

/-- The bytes of a unit; `be` is the order of a big-endian machine. -/
def unitBytes (be : Bool) (u : ℕ) : List ℕ :=
  if be then [u / 0x100, u % 0x100] else [u % 0x100, u / 0x100]

theorem unit_unitBytes (be : Bool) (u : ℕ) :
    ∃ b₀ b₁, unitBytes be u = [b₀, b₁] ∧ unit be b₀ b₁ = u := by
  have hor : (u / 0x100) <<< 8 ||| u % 0x100 = u := by
    have hlow : u % 0x100 < 2 ^ 8 := Nat.mod_lt u (by decide)
    rw [shiftLeft_or _ hlow]
    omega
  cases be with
  | true => exact ⟨_, _, rfl, hor⟩
  | false => exact ⟨_, _, rfl, hor⟩

/-- One character of a text in UTF-16. -/
theorem str2utf8Loop_char (be : Bool) (c : Char) (s : List ℕ) :
    str2utf8Loop be ((utf16Units c).flatMap (unitBytes be) ++ s)
      = utf8Bytes c.toNat ++ str2utf8Loop be s := by
  have hvalid := c.valid
  simp only [UInt32.isValidChar, Nat.isValidChar] at hvalid
  have hval : c.val.toNat = c.toNat := rfl
  rw [hval] at hvalid
  by_cases hplane : c.toNat < 0x10000
  · obtain ⟨b₀, b₁, hbytes, hunit⟩ := unit_unitBytes be c.toNat
    rw [utf16Units, if_pos hplane, List.flatMap_singleton, hbytes]
    show str2utf8Loop be (b₀ :: b₁ :: s) = _
    rw [str2utf8Loop.eq_def]
    simp only
    rw [hunit, if_neg (by omega)]
  · -- a surrogate pair has ten bits in each half
    have hhigh : (c.toNat - 0x10000) / 0x400 < 0x400 := by omega
    have hlow : (c.toNat - 0x10000) % 0x400 < 2 ^ 10 := Nat.mod_lt _ (by decide)
    obtain ⟨b₀, b₁, hbytes, hunit⟩ := unit_unitBytes be (0xd800 + (c.toNat - 0x10000) / 0x400)
    obtain ⟨b₂, b₃, hbytes', hunit'⟩ := unit_unitBytes be (0xdc00 + (c.toNat - 0x10000) % 0x400)
    have hmask (a x : ℕ) (ha : a % 0x400 = 0) (hx : x < 0x400) : (a + x) &&& 0x3ff = x := by
      rw [Nat.and_two_pow_sub_one_eq_mod _ 10]
      omega
    rw [utf16Units, if_neg hplane, List.flatMap_cons, List.flatMap_singleton, hbytes, hbytes']
    show str2utf8Loop be (b₀ :: b₁ :: b₂ :: b₃ :: s) = _
    rw [str2utf8Loop, hunit, hunit']
    simp only
    rw [if_pos (by omega), hmask _ _ rfl hhigh, hmask _ _ rfl hlow, shiftLeft_or _ hlow]
    congr 2
    omega

theorem str2utf8Loop_text (be : Bool) (text : List Char) :
    str2utf8Loop be (text.flatMap fun c => (utf16Units c).flatMap (unitBytes be))
      = text.flatMap fun c => utf8Bytes c.toNat := by
  induction text with
  | nil => rfl
  | cons c text ih => rw [List.flatMap_cons, str2utf8Loop_char, ih, List.flatMap_cons]

/-! ### Encodings -/

/-- The encodings of a file. -/
inductive Encoding
  | utf8
  | utf16 (be : Bool)
  deriving DecidableEq, Repr

/-- A text as the bytes of a file. -/
def Encoding.file : Encoding → List Char → List UInt8
  | utf8, text => text.flatMap String.utf8EncodeChar
  | utf16 be, text =>
    (unitBytes be 0xfeff ++ text.flatMap fun c => (utf16Units c).flatMap (unitBytes be)).map
      UInt8.ofNat

/-- A text as the parser sees it. -/
def utf8Chars (text : List Char) : CStr := text.flatMap fun c => charBytes c.toNat

theorem utf8Chars_eq (text : List Char) :
    utf8Chars text = (text.flatMap fun c => utf8Bytes c.toNat).map Char.ofNat := by
  rw [List.map_flatMap]
  rfl

theorem unitBytes_lt {be : Bool} {u b : ℕ} (hu : u < 0x10000) (h : b ∈ unitBytes be u) :
    b < 256 := by
  rw [unitBytes] at h
  split at h
  all_goals
    simp only [List.mem_cons, List.not_mem_nil, or_false] at h
    omega

theorem utf16Units_lt {c : Char} {u : ℕ} (h : u ∈ utf16Units c) : u < 0x10000 := by
  have hvalid := c.valid
  simp only [UInt32.isValidChar, Nat.isValidChar] at hvalid
  have hval : c.val.toNat = c.toNat := rfl
  rw [hval] at hvalid
  rw [utf16Units] at h
  split at h
  · rw [List.mem_singleton] at h
    omega
  · simp only [List.mem_cons, List.not_mem_nil, or_false] at h
    omega

/-- No byte of UTF-8 looks like the mark of a file in UTF-16. -/
theorem utf8EncodeChar_lt {c : Char} {b : UInt8} (h : b ∈ String.utf8EncodeChar c) :
    b.toNat < 0xf8 := by
  rw [String.utf8EncodeChar] at h
  split at h
  · simp only [List.mem_cons, List.not_mem_nil, or_false] at h
    subst h
    simp only [UInt8.toNat_ofNat']
    omega
  · split at h
    · simp only [List.mem_cons, List.not_mem_nil, or_false] at h
      rcases h with rfl | rfl
      all_goals
        simp only [UInt8.toNat_ofNat']
        omega
    · split at h
      · simp only [List.mem_cons, List.not_mem_nil, or_false] at h
        rcases h with rfl | rfl | rfl
        all_goals
          simp only [UInt8.toNat_ofNat']
          omega
      · simp only [List.mem_cons, List.not_mem_nil, or_false] at h
        rcases h with rfl | rfl | rfl | rfl
        all_goals
          simp only [UInt8.toNat_ofNat']
          omega

/-- **The parser sees the text in UTF-8**, whatever the encoding of the file. -/
theorem buffer_file (enc : Encoding) (text : List Char) :
    buffer (enc.file text) = utf8Chars text := by
  rw [buffer, utf8Chars_eq]
  congr 1
  cases enc with
  | utf8 =>
    have hbytes : (Encoding.utf8.file text).map UInt8.toNat
        = text.flatMap fun c => utf8Bytes c.toNat := by
      rw [Encoding.file, List.map_flatMap]
      simp only [utf8Bytes_char]
    have hmark {n : ℕ} (hn : 0xf8 ≤ n) :
        ¬ ((Encoding.utf8.file text).map UInt8.toNat).head? = some n := by
      intro h
      have hmem := List.mem_of_head? h
      obtain ⟨b, hb, rfl⟩ := List.mem_map.mp hmem
      obtain ⟨c, -, hc⟩ := List.mem_flatMap.mp hb
      exact absurd (utf8EncodeChar_lt hc) (by omega)
    rw [ezxmlStr2utf8, if_neg (hmark (by decide)), if_neg (hmark (by decide)), hbytes]
  | utf16 be =>
    have hbytes : ((Encoding.utf16 be).file text).map UInt8.toNat = unitBytes be 0xfeff ++
        text.flatMap fun c => (utf16Units c).flatMap (unitBytes be) := by
      rw [Encoding.file, List.map_map, List.map_congr_left, List.map_id]
      intro b hb
      have hlt : b < 256 := by
        rcases List.mem_append.mp hb with hb | hb
        · exact unitBytes_lt (by decide) hb
        · obtain ⟨c, -, hc⟩ := List.mem_flatMap.mp hb
          obtain ⟨u, hu, hub⟩ := List.mem_flatMap.mp hc
          exact unitBytes_lt (utf16Units_lt hu) hub
      simp [Nat.mod_eq_of_lt hlt]
    rw [hbytes, ← str2utf8Loop_text be]
    cases be with
    | true => rfl
    | false => rfl

theorem file_ne_nil {text : List Char} (h : text ≠ []) (enc : Encoding) : enc.file text ≠ [] := by
  obtain ⟨c, text, rfl⟩ := List.exists_cons_of_ne_nil h
  cases enc with
  | utf8 =>
    rw [Encoding.file, List.flatMap_cons]
    exact fun hnil => String.utf8EncodeChar_ne_nil (List.append_eq_nil_iff.mp hnil).1
  | utf16 be =>
    rw [Encoding.file]
    cases be with
    | true => exact List.cons_ne_nil _ _
    | false => exact List.cons_ne_nil _ _

/-- **The encoding makes no difference**: a text in UTF-8 and in UTF-16 of either order is parsed
to the same tree or error, or goes wrong at the same place. -/
theorem ezxmlParseStr_encoding {text : List Char} (h : text ≠ []) (enc enc' : Encoding) :
    ezxmlParseStr (enc.file text) = ezxmlParseStr (enc'.file text) := by
  rw [ezxmlParseStr, ezxmlParseStr, if_neg (file_ne_nil h enc), if_neg (file_ne_nil h enc'),
    buffer_file, buffer_file]

/-- `<é>`, of which UTF-8 makes four bytes. -/
theorem ezxmlParseStr_encoding_accent :
    ezxmlParseStr ((Encoding.utf16 true).file ['<', 'é', '>'])
      = ezxmlParseStr (Encoding.utf8.file ['<', 'é', '>']) :=
  ezxmlParseStr_encoding (by decide) _ _

/-- **Every text is read back**: a file that holds the text, in whatever encoding, is parsed
without an error, and the tree is the one the text stands for. -/
theorem ezxmlParseStr_print (enc : Encoding) (d : XmlText) {text : List Char}
    (htext : utf8Chars text = d.print) (hnul : Char.ofNat 0 ∉ d.print) :
    ezxmlParseStr (enc.file text) = .ok ⟨.closed d.tree, []⟩ :=
  ezxmlParseStr_of_print d ((buffer_file enc text).trans htext) hnul

/-- An attribute with one blank in front of it, in double quotes. -/
def plainAttr (name value : String)
    (hname : name.toList ≠ [] ∧ name.toList.all fun c => !endsAttr c && !isSpace c)
    (hvalue : value.toList.all fun c => c ≠ '&' ∧ c ≠ '\r' ∧ shown ' ' c = c)
    (hquote : '"' ∉ value.toList) : Attr where
  space := [' ']
  name := name.toList
  before := []
  after := []
  quote := '"'
  raw := value.toList
  value := value.toList
  space_ne := by decide
  space_blank := by decide
  name_ne := hname.1
  name_plain := by simpa using hname.2
  before_blank := by decide
  after_blank := by decide
  quote_eq := .inl rfl
  escaped := .of_plain (by simpa using hvalue)
  plain := hquote

/-- A tag without blanks at its end. -/
def plainTag (name : String) (attrs : List Attr) (hstart : name.toList.head?.any startsName = true)
    (hname : name.toList.all fun c => !endsName c) : TagText :=
  ⟨name.toList, attrs, [], hstart, by simpa using hname, by decide⟩

def noText : Text := ⟨[], [], .nil, by decide⟩

def noBreak : Plain := ⟨[], by decide⟩

def noSpace : {s : CStr // Blank s} := ⟨[], by decide⟩

/-- `<a b="&lt;">` -/
def sampleTag : TagText where
  name := ['a']
  attrs := [{
    space := [' '], name := ['b'], before := [], after := [], quote := '"'
    raw := "&lt;".toList, value := ['<']
    space_ne := by decide, space_blank := by decide, name_ne := by decide
    name_plain := by simp [endsAttr, isWs, isSpace], before_blank := by decide, after_blank := by decide
    quote_eq := .inl rfl
    escaped := .entity (List.mem_cons_self ..) .nil
    plain := by decide }]
  space := []
  name_start := by decide
  name_plain := by simp [endsName, isWs]
  space_blank := by decide

/-- Two lines, with a bare `\r` between them. -/
def twoLines : Text where
  raw := ['x', '\r', 'y']
  txt := ['x', '\n', 'y']
  escaped := .char (by decide) (by decide) (.bare (by decide) (.of_plain (by simp [shown])))
  plain := by decide

/-- `<a b="&lt;">`, two lines and `</a><!--z-->` -/
def sampleText : XmlText where
  lead := noBreak
  prolog := []
  root := .element sampleTag (.text twoLines) noSpace
  trail := noBreak
  epilog := [(.comment ⟨['z'], by decide⟩, noBreak)]

theorem ezxmlParseStr_print_sample :
    ezxmlParseStr ((Encoding.utf16 true).file "<a b=\"&lt;\">x\ry</a><!--z-->".toList)
      = .ok ⟨.closed sampleText.tree, []⟩ :=
  ezxmlParseStr_print _ sampleText (by decide) (by decide)

/-! ### Documents -/

/-- `ezxml_parse_file`, NULL for a file that cannot be opened. -/
def ezxmlParseFile (file : Option (List UInt8)) : Except Halt (Option Xml.EzxmlFile) :=
  match file with
  | none => .ok none
  | some bytes =>
    (ezxmlParseStr bytes).map fun root => some ⟨root.document, String.ofList root.err⟩

end Ezxml

/-- `fp_parse_fp1` on the bytes of a file. -/
def fpParseFp1Bytes (file : Option (List UInt8)) (fp : FujiProfile) :
    Except Ezxml.Halt (Option (Int × FujiProfile)) :=
  (Ezxml.ezxmlParseFile file).map fun xml => fpParseFp1File xml fp

namespace Ezxml

/-- What a node adds to the text around it. -/
def Node.txt : Node → CStr
  | .cdata c => normalize c.text
  | _ => []

/-- The text of an element, without the texts of the elements in it. -/
def Content.txt : Content → CStr
  | .text t => t.txt
  | .cons t n c => t.txt ++ (n.txt ++ c.txt)

def Content.nodes : Content → List Node
  | .text _ => []
  | .cons _ n c => n :: c.nodes

/-- A node as a setting of a profile. -/
def Node.setting : Node → Option Element
  | .element tag content _ => some ⟨String.ofList tag.name, String.ofList content.txt, false⟩
  | .empty tag => some ⟨String.ofList tag.name, "", true⟩
  | _ => none

/-- A node as a group of settings. -/
def Node.group : Node → Option Group
  | .element tag content _ =>
    some ⟨String.ofList tag.name, content.nodes.filterMap Node.setting⟩
  | .empty tag => some ⟨String.ofList tag.name, []⟩
  | _ => none

def RootText.nodes : RootText → List Node
  | element _ content _ => content.nodes
  | empty _ => []

/-- The document that a text stands for. -/
def XmlText.document (d : XmlText) : Document where
  name := some (String.ofList d.root.tag.name)
  attrs := d.root.tag.attr.map fun a => (String.ofList a.1, String.ofList a.2)
  child := (d.root.nodes.filterMap Node.group).head?

theorem Node.add_tag (n : Node) (f : Frame) :
    (n.add f).tag = { f.tag with txt := f.tag.txt ++ n.txt } := by
  cases n with
  | element tag content space => simp [Node.add, Node.txt]
  | empty tag => simp [Node.add, Node.txt]
  | cdata c => rfl
  | comment c => simp [Node.add, Node.txt]
  | inst i => simp [Node.add, Node.txt]

theorem Content.add_tag (c : Content) (f : Frame) :
    (c.add f).tag = { f.tag with txt := f.tag.txt ++ c.txt } := by
  cases c with
  | text t => rfl
  | cons t n c =>
    rw [Content.add, c.add_tag, n.add_tag]
    simp [Frame.addText, Content.txt]

/-- The children that a content adds, as far as they do not depend on their offsets. -/
theorem Content.add_children {β : Type} {view : Tree → β} {part : Node → Option β}
    (hnode : ∀ n f, (n.add f).children.map view = f.children.map view ++ (part n).toList)
    (c : Content) (f : Frame) :
    (c.add f).children.map view = f.children.map view ++ c.nodes.filterMap part := by
  cases c with
  | text t => exact (List.append_nil _).symm
  | cons t n c =>
    rw [Content.add, Content.add_children hnode c, hnode, List.append_assoc]
    show f.children.map view ++ ((part n).toList ++ _) = _
    rw [Content.nodes, List.filterMap_cons]
    cases part n with
    | none => rfl
    | some b => rfl

theorem Frame.element_tree (f : Frame) : f.tree.element
    = ⟨String.ofList f.tag.name, String.ofList f.tag.txt, f.tag.selfClosing⟩ := rfl

theorem Node.add_settings (n : Node) (f : Frame) :
    (n.add f).children.map Tree.element = f.children.map Tree.element ++ n.setting.toList := by
  cases n with
  | element tag content space =>
    rw [Node.add, Frame.insert, List.map_append, List.map_singleton, Frame.element_tree,
      content.add_tag]
    rfl
  | empty tag => exact List.map_append
  | cdata c => exact (List.append_nil _).symm
  | comment c => exact (List.append_nil _).symm
  | inst i => exact (List.append_nil _).symm

/-- A child of the root as the reader of profiles sees it. -/
def Tree.group (t : Tree) : Group := ⟨String.ofList t.tag.name, t.children.map Tree.element⟩

theorem Frame.group_tree (f : Frame) :
    f.tree.group = ⟨String.ofList f.tag.name, f.children.map Tree.element⟩ := rfl

theorem Node.add_groups (n : Node) (f : Frame) :
    (n.add f).children.map Tree.group = f.children.map Tree.group ++ n.group.toList := by
  cases n with
  | element tag content space =>
    rw [Node.add, Frame.insert, List.map_append, List.map_singleton, Frame.group_tree,
      content.add_tag, content.add_children Node.add_settings]
    rfl
  | empty tag => exact List.map_append
  | cdata c => exact (List.append_nil _).symm
  | comment c => exact (List.append_nil _).symm
  | inst i => exact (List.append_nil _).symm

/-- The reader of profiles sees the document in the tree. -/
theorem document_tree (d : XmlText) : Root.document ⟨.closed d.tree, []⟩ = d.document := by
  have hdoc (f : Frame) : Root.document ⟨.closed f.tree, []⟩
      = ⟨some (String.ofList f.tag.name),
        f.tag.attr.map fun a => (String.ofList a.1, String.ofList a.2),
        (f.children.map Tree.group).head?⟩ := by
    rw [List.head?_map]
    rfl
  rw [XmlText.tree, hdoc, XmlText.document]
  cases d.root with
  | element tag content space =>
    rw [RootText.frame, content.add_children Node.add_groups, content.add_tag]
    rfl
  | empty tag => rfl

theorem fpParseFp1Bytes_text (enc : Encoding) (d : XmlText) {text : List Char}
    (htext : utf8Chars text = d.print) (hnul : Char.ofNat 0 ∉ d.print) (fp : FujiProfile) :
    fpParseFp1Bytes (some (enc.file text)) fp = .ok (fpParseFp1 (some d.document) fp) := by
  have hparse := ezxmlParseStr_of_print d ((buffer_file enc text).trans htext) hnul
  rw [fpParseFp1Bytes, ezxmlParseFile.eq_def]
  simp only [hparse, Except.map]
  rw [document_tree]
  rfl

/-- **What the reader of profiles gets from a file**: the document that the text in it stands
for, whatever the encoding and the layout; so no NULL pointer is dereferenced, and the file is
taken just if that document reads as a profile. -/
theorem fpParseFp1Bytes_file (enc : Encoding) (d : XmlText) {text : List Char}
    (htext : utf8Chars text = d.print) (hnul : Char.ofNat 0 ∉ d.print) (fp : FujiProfile) :
    ∃ rc x, fpParseFp1Bytes (some (enc.file text)) fp = .ok (some (rc, x)) ∧
      fpParseFp1 (some d.document) fp = some (rc, x) ∧
      (rc = 0 ↔ Xml.ReadsAsProfile d.document) := by
  have hname : d.document.name = some (String.ofList d.root.tag.name) := rfl
  obtain ⟨q, hq⟩ := Xml.fpParseFp1_eq hname fp
  obtain ⟨⟨rc, x⟩, hrun⟩ : ∃ r, fpParseFp1 (some d.document) fp = some r := ⟨_, hq⟩
  refine ⟨rc, x, ?_, hrun, ?_⟩
  · rw [fpParseFp1Bytes_text enc d htext hnul, hrun]
  · rw [← Xml.fpParseFp1_accepts_iff_reads fp, hrun]
    simp

/-- The head of a profile of the third version. -/
def profileTag : TagText :=
  plainTag "ConversionProfile"
    [plainAttr "application" "XRFC" (by decide) (by decide) (by decide),
      plainAttr "version" "1.12.0.0" (by decide) (by decide) (by decide)] (by decide) (by decide)

/-- A profile that sets the sharpness. -/
def sharpnessText : XmlText where
  lead := noBreak
  prolog := []
  root := .element profileTag
    (.cons noText
      (.element (plainTag "PropertyGroup" [] (by decide) (by decide))
        (.cons noText
          (.element (plainTag "Sharpness" [] (by decide) (by decide))
            (.text ⟨['1'], ['1'], .of_plain (by simp [shown]), by decide⟩) noSpace)
          (.text noText)) noSpace)
      (.text noText)) noSpace
  trail := ⟨['\n'], by decide⟩
  epilog := []

theorem fpParseFp1Bytes_file_sharpness :
    ∃ rc x, fpParseFp1Bytes (some ((Encoding.utf16 false).file sharpnessText.print)) .zero
        = .ok (some (rc, x)) ∧
      fpParseFp1 (some sharpnessText.document) .zero = some (rc, x) ∧
      (rc = 0 ↔ Xml.ReadsAsProfile sharpnessText.document) :=
  fpParseFp1Bytes_file _ sharpnessText (by decide) (by decide) _

end Ezxml

end Fuji
