/-
The parser of XML files (`ezxml.c`), from the bytes of a file to the tree that the reader of
profiles walks through.

The source cuts its buffer into C strings in place.  Here the buffer behind the pointer `s` is
a list of characters, one for each byte, without the NUL at its end, and `e` is the last
character, which the source replaces by that NUL.  Two things of the source show through: a
text that ends in a bare `\r` is normalized beyond its end (`runsOn`), and `<?>` cuts the rest
of the buffer off (`ezxmlProcInst`).

`Halt` is where the model ends: an access behind the buffer, a shift by a negative count or a
NUL in the middle of a text, and the internal subset of a document type.  Processing
instructions are read and not kept, and an error is its text without the number of the line.
-/
import LibFuji.Xml

namespace Fuji

/-- A C string: a character stands for a byte, and the NUL at the end is left out. -/
abbrev CStr : Type := List Char

/-- `strtol(s, &e, base)`: the number and what `e` points to. -/
def strtol (s : CStr) (base : ℕ) : Int × CStr :=
  let (neg, cs) := takeSign (s.dropWhile isSpace)
  let (base, cs) := takeBase base cs
  if cs.takeWhile (isDigitOf base) = [] then (0, s)
  else
    let v := (cs.takeWhile (isDigitOf base)).foldl (fun acc c => acc * base + (digitVal c).getD 0) 0
    (if neg then max (-2 ^ 63) (-(v : Int)) else min (2 ^ 63 - 1) (v : Int),
      cs.dropWhile (isDigitOf base))

/-- `strstr`: what stands in front of a word, and what behind it. -/
def cutAt (word : CStr) : CStr → Option (CStr × CStr)
  | [] => if word = [] then some ([], []) else none
  | c :: s =>
    if word <+: c :: s then some ([], (c :: s).drop word.length)
    else (cutAt word s).map fun r => (c :: r.1, r.2)

namespace Ezxml

/-- Where the model ends. -/
inductive Halt
  /-- an access behind the end of the buffer -/
  | behind
  /-- a character reference that shifts by a negative count, or stands for a NUL -/
  | reference
  /-- an internal subset of a document type -/
  | subset
  deriving DecidableEq, Repr

/-! ### Texts -/

/-- `EZXML_WS` -/
def isWs (c : Char) : Bool := c = '\t' ∨ c = '\r' ∨ c = '\n' ∨ c = ' '

/-- `ezxml_decode`: the loop that normalizes the ends of lines. -/
def normalize : CStr → CStr
  | '\r' :: '\n' :: s => '\n' :: normalize s
  | '\r' :: s => '\n' :: normalize s
  | c :: s => c :: normalize s
  | [] => []

/-- That loop steps over the end of a text whose last character is a bare `\r`, unless it has
left a second NUL there when it made one character of `\r\n`. -/
def runsOn (s : CStr) : Bool := s.getLast? = some '\r' ∧ ¬ ['\r', '\n'] <:+: s

/-- What that loop makes of the buffer behind a text. -/
def normalizeBehind (text rest : CStr) : Except Halt CStr :=
  if runsOn text = false then .ok rest
  else if runsOn rest = false then .ok (normalize rest)
  else .error .behind

/-- The bytes of a character of a reference; a payload of more than seven bytes shifts by a
negative count. -/
def refBytes (c : Int) : Except Halt CStr :=
  if c < 0x80 then
    if c % 256 = 0 then .error .reference else .ok [Char.ofNat (c % 256).toNat]
  else
    let c := c.toNat
    let b := (c.size - 2) / 5
    if b > 7 then .error .reference
    else .ok (Char.ofNat ((0xff <<< (7 - b) ||| c >>> (6 * b)) % 256) ::
      (List.range b).reverse.map fun i => Char.ofNat (0x80 ||| (c >>> (6 * i) &&& 0x3f)))

/-- `ezxml_decode`: the number of a character reference, and what stands behind it; the text
begins behind `&#`. -/
def charRef (s : CStr) : Option (Int × CStr) :=
  let r := if s.head? = some 'x' then strtol s.tail 16 else strtol s 10
  match r with
  | (c, ';' :: rest) => if c = 0 then none else some (c, rest)
  | _ => none

/-- The general entities of `ezxml_new`. -/
def ent : List (CStr × CStr) :=
  [(['l', 't', ';'], ['&', '#', '6', '0', ';']),
    (['g', 't', ';'], ['&', '#', '6', '2', ';']),
    (['q', 'u', 'o', 't', ';'], ['&', '#', '3', '4', ';']),
    (['a', 'p', 'o', 's', ';'], ['&', '#', '3', '9', ';']),
    (['a', 'm', 'p', ';'], ['&', '#', '3', '8', ';'])]

/-- `ezxml_decode`: the loop that decodes references; `t` is `&` for a text, a blank for an
attribute and `c` for a CDATA section. -/
def decodeLoop (t : Char) : ℕ → CStr → Except Halt CStr
  | 0, s => .ok s
  | _ + 1, [] => .ok []
  | fuel + 1, c :: s =>
    if t ≠ 'c' ∧ c = '&' ∧ s.head? = some '#' then
      match charRef s.tail with
      | none => do return c :: (← decodeLoop t fuel s)
      | some (n, rest) => do return (← refBytes n) ++ (← decodeLoop t fuel rest)
    else if t ≠ 'c' ∧ c = '&' then
      match ent.find? (·.1 <+: s) with
      -- the replacement is decoded in its turn
      | some entity => decodeLoop t fuel (entity.2 ++ (s.dropWhile (· ≠ ';')).tail)
      | none => do return c :: (← decodeLoop t fuel s)
    else if t = ' ' ∧ isSpace c then do return ' ' :: (← decodeLoop t fuel s)
    else do return c :: (← decodeLoop t fuel s)

/-- `ezxml_decode`, and the buffer behind the text. -/
def ezxmlDecode (text : CStr) (t : Char) (rest : CStr) : Except Halt (CStr × CStr) := do
  let rest ← normalizeBehind text rest
  let text ← decodeLoop t (2 * (normalize text).length + 1) (normalize text)
  return (text, rest)

/-! ### The tree -/

/-- `struct ezxml` without its pointers; `off` is the offset in the text of the parent. -/
structure Tag where
  name : CStr
  attr : List (CStr × CStr)
  txt : CStr
  off : ℕ
  selfClosing : Bool
  deriving DecidableEq, Repr

/-- A tag with its children in their order. -/
inductive Tree
  | node (tag : Tag) (children : List Tree)

def Tree.tag : Tree → Tag
  | node tag _ => tag

def Tree.children : Tree → List Tree
  | node _ children => children

/-- An open tag with the children that are closed. -/
structure Frame where
  tag : Tag
  children : List Tree

/-- `root->cur`: the root without a name, an open tag with the tags around it, or NULL behind
the root. -/
inductive Cursor
  | fresh
  | inside (cur : Frame) (parents : List Frame)
  | closed (root : Tree)

/-- `ezxml_insert` of a child behind the children that are there. -/
def Frame.insert (frame : Frame) (child : Tree) : Frame :=
  { frame with children := frame.children ++ [child] }

def Frame.tree (frame : Frame) : Tree := .node frame.tag frame.children

/-- The tree as far as it is built; `none` is a root without a name. -/
def Cursor.tree : Cursor → Option Tree
  | fresh => none
  | inside cur parents => some (parents.foldl (fun t f => (f.insert t).tree) cur.tree)
  | closed root => some root

/-- `ezxml_open_tag`. -/
def ezxmlOpenTag (cur : Cursor) (name : CStr) (attr : List (CStr × CStr)) (selfClosing : Bool) :
    Cursor :=
  match cur with
  | .fresh => .inside ⟨⟨name, attr, [], 0, selfClosing⟩, []⟩ []
  | .inside cur parents =>
    .inside ⟨⟨name, attr, [], cur.tag.txt.length, selfClosing⟩, []⟩ (cur :: parents)
  | .closed root => .closed root

/-- `ezxml_close_tag`; `none` is its error. -/
def ezxmlCloseTag (cur : Cursor) (name : CStr) : Option Cursor :=
  match cur with
  | .inside cur parents =>
    if name ≠ cur.tag.name then none
    else
      match parents with
      | [] => some (.closed cur.tree)
      | parent :: parents => some (.inside (parent.insert cur.tree) parents)
  | _ => none

/-- `ezxml_char_content`, and the buffer behind the text. -/
def ezxmlCharContent (cur : Cursor) (text : CStr) (t : Char) (rest : CStr) :
    Except Halt (Cursor × CStr) :=
  match cur with
  | .inside frame parents =>
    if text = [] then .ok (cur, rest)
    else do
      let (text, rest) ← ezxmlDecode text t rest
      let tag := { frame.tag with txt := frame.tag.txt ++ text }
      return (.inside { frame with tag := tag } parents, rest)
  | cur => .ok (cur, rest)

/-! ### Markup -/

/-- What `ezxml_parse_str` returns: the tree as far as it is built, and the text of the error,
empty if there is none. -/
structure Root where
  cur : Cursor
  err : CStr

/-- Behind a piece of markup: the parser returns, or goes on at the next `<`. -/
inductive Turn
  | stop (root : Root)
  | next (cur : Cursor) (s : CStr)

/-- `return ezxml_err(root, d, err)`. -/
def ezxmlErr (cur : Cursor) (err : String) : Except Halt Turn := .ok (.stop ⟨cur, err.toList⟩)

/-- The end of `ezxml_parse_str`. -/
def finish (cur : Cursor) : Root :=
  match cur with
  | .closed _ => ⟨cur, []⟩
  | .fresh => ⟨cur, "root tag missing".toList⟩
  | .inside frame _ => ⟨cur, "unclosed tag <".toList ++ frame.tag.name ++ ['>']⟩

/-- `ezxml_parse_str` behind a piece of markup, whose last character comes first. -/
def afterMarkup (cur : Cursor) (s : CStr) : Except Halt Turn :=
  match s.tail with
  | [] => .ok (.stop (finish cur))
  | '<' :: s => .ok (.next cur s)
  | d =>
    match d.dropWhile (· ≠ '<') with
    | [] => .ok (.stop (finish cur))
    | _ :: s => do
      let (cur, s) ← ezxmlCharContent cur (d.takeWhile (· ≠ '<')) '&' s
      return .next cur s

/-- An attribute behind its name: the value, and what follows it; or the quote that is missing. -/
def attrValue (s : CStr) : Except Halt (CStr × CStr ⊕ Char) :=
  if s.head? = some '=' ∨ s.head?.any isSpace then
    match s.tail.dropWhile (fun c => isWs c ∨ c = '=') with
    | q :: v =>
      if q = '"' ∨ q = '\'' then
        match v.dropWhile (· ≠ q) with
        | [] => .ok (.inr q)
        | _ :: s => (ezxmlDecode (v.takeWhile (· ≠ q)) ' ' s).map .inl
      else .ok (.inl ([], q :: v))
    | [] => .ok (.inl ([], []))
  else .ok (.inl ([], s))

/-- The characters that end the name of an attribute. -/
def endsAttr (c : Char) : Bool := isWs c ∨ c = '=' ∨ c = '/' ∨ c = '>'

/-- The loop over the attributes of a tag: the attributes and what follows them, or the quote
that is missing. -/
def attrLoop : ℕ → CStr → Except Halt (List (CStr × CStr) × CStr ⊕ Char)
  | 0, s => .ok (.inl ([], s))
  | fuel + 1, s =>
    if s = [] ∨ s.head? = some '/' ∨ s.head? = some '>' then .ok (.inl ([], s))
    else do
      match ← attrValue (s.dropWhile (!endsAttr ·)) with
      | .inr q => return .inr q
      | .inl (value, rest) =>
        match ← attrLoop fuel (rest.dropWhile isSpace) with
        | .inr q => return .inr q
        | .inl (attr, rest) => return .inl ((s.takeWhile (!endsAttr ·), value) :: attr, rest)

/-- `isalpha(*s) || *s == '_' || *s == ':' || *s < '\0'` -/
def startsName (c : Char) : Bool :=
  'A' ≤ c ∧ c ≤ 'Z' ∨ 'a' ≤ c ∧ c ≤ 'z' ∨ c = '_' ∨ c = ':' ∨ 0x80 ≤ c.toNat

/-- The characters that end the name of a tag. -/
def endsName (c : Char) : Bool := isWs c ∨ c = '/' ∨ c = '>'

/-- An element that is opened and closed by one tag. -/
def emptyElement (cur : Cursor) (name : CStr) (attr : List (CStr × CStr)) : Cursor :=
  let cur := ezxmlOpenTag cur name attr true
  (ezxmlCloseTag cur name).getD cur

/-- A new tag behind its name and attributes. -/
def tagEnd (e : Char) (cur : Cursor) (name : CStr) (attr : List (CStr × CStr)) (s : CStr) :
    Except Halt Turn :=
  match s with
  | '/' :: s =>
    if s.head?.any (· ≠ '>') ∨ s = [] ∧ e ≠ '>' then ezxmlErr cur "missing >"
    else afterMarkup (emptyElement cur name attr) s
  | s =>
    if s.head? = some '>' ∨ s = [] ∧ e = '>' then afterMarkup (ezxmlOpenTag cur name attr false) s
    else ezxmlErr cur "missing >"

/-- A new tag behind its name. -/
def tagAttrs (e : Char) (cur : Cursor) (name s : CStr) : Except Halt Turn := do
  match ← attrLoop (s.length + 1) s with
  | .inr q => return .stop ⟨cur, "missing ".toList ++ [q]⟩
  | .inl (attr, s) => tagEnd e cur name attr s

/-- A new tag. -/
def newTag (e : Char) (cur : Cursor) (s : CStr) : Except Halt Turn :=
  match cur with
  | .closed _ => ezxmlErr cur "markup outside of root element"
  | cur =>
    tagAttrs e cur (s.takeWhile (!endsName ·)) ((s.dropWhile (!endsName ·)).dropWhile isSpace)

/-- The characters that end the name in a closing tag. -/
def endsClosing (c : Char) : Bool := isWs c ∨ c = '>'

/-- A closing tag behind its name. -/
def closingEnd (e : Char) (cur : Cursor) (name s : CStr) : Except Halt Turn :=
  if s = [] ∧ e ≠ '>' then ezxmlErr cur "missing >"
  else
    match ezxmlCloseTag cur name with
    | none => .ok (.stop ⟨cur, "unexpected closing tag </".toList ++ name ++ ['>']⟩)
    | some cur => afterMarkup cur (if s.head?.any isSpace then s.dropWhile isWs else s)

/-- A closing tag, from behind the `/` on. -/
def closingTag (e : Char) (cur : Cursor) (s : CStr) : Except Halt Turn :=
  closingEnd e cur (s.takeWhile (!endsClosing ·)) (s.dropWhile (!endsClosing ·))

/-- A comment, from behind `!--` on. -/
def comment (e : Char) (cur : Cursor) (s : CStr) : Except Halt Turn :=
  match cutAt ['-', '-'] s with
  | none => ezxmlErr cur "unclosed <!--"
  | some (_, s) =>
    if s.head?.any (· ≠ '>') ∨ s = [] ∧ e ≠ '>' then ezxmlErr cur "unclosed <!--"
    else afterMarkup cur s

/-- A CDATA section, from behind `![CDATA[` on. -/
def cdata (cur : Cursor) (s : CStr) : Except Halt Turn :=
  match cutAt [']', ']', '>'] s with
  | none => ezxmlErr cur "unclosed <![CDATA["
  | some (text, s) => do
    let (cur, s) ← ezxmlCharContent cur text 'c' s
    afterMarkup cur ('>' :: s)

/-- The end of a document type, and whether it has an internal subset. -/
def doctypeEnd : ℕ → Bool → CStr → Bool × CStr
  | 0, l, s => (l, s)
  | fuel + 1, l, s =>
    if s ≠ [] ∧ (l = false ∧ s.head? ≠ some '>' ∨
        l = true ∧ (s.head? ≠ some ']' ∨ (s.tail.dropWhile isWs).head? ≠ some '>')) then
      let s := s.tail.dropWhile fun c => ¬ (c = '[' ∨ c = ']' ∨ c = '>')
      doctypeEnd fuel (l || s.head? = some '[') s
    else (l, s)

/-- A document type. -/
def doctype (e : Char) (cur : Cursor) (s : CStr) : Except Halt Turn :=
  let (l, s) := doctypeEnd (s.length + 1) false s
  if s = [] ∧ e ≠ '>' then ezxmlErr cur "unclosed <!DOCTYPE"
  else if l = true then .error .subset
  else afterMarkup cur s

/-- The end of a processing instruction; `quest` says that the last character was a `?`. -/
def instEnd : Bool → CStr → Option CStr
  | quest, [] => if quest then some [] else none
  | quest, c :: s => if quest ∧ c = '>' then some (c :: s) else instEnd (c = '?') s

/-- `ezxml_proc_inst` as far as it touches the buffer: the instruction of `<?>` has the length
-1, so that its target goes on to the next blank, where the buffer ends from then on. -/
def ezxmlProcInst (s rest : CStr) : CStr := if rest = s then s.takeWhile (!isWs ·) else rest

/-- A processing instruction, from behind the `?` on. -/
def procInst (e : Char) (cur : Cursor) (s : CStr) : Except Halt Turn :=
  match instEnd true s with
  | none => ezxmlErr cur "unclosed <?"
  | some rest =>
    if rest = [] ∧ e ≠ '>' then ezxmlErr cur "unclosed <?"
    else afterMarkup cur (ezxmlProcInst s rest)

/-- One turn of the loop of `ezxml_parse_str`, from behind a `<` on. -/
def turn (e : Char) (cur : Cursor) (s : CStr) : Except Halt Turn :=
  if s.head?.any startsName then newTag e cur s
  else if s.head? = some '/' then closingTag e cur s.tail
  else if ['!', '-', '-'] <+: s then comment e cur (s.drop 3)
  else if ['!', '[', 'C', 'D', 'A', 'T', 'A', '['] <+: s then cdata cur (s.drop 8)
  else if ['!', 'D', 'O', 'C', 'T', 'Y', 'P', 'E'] <+: s then doctype e cur s
  else if s.head? = some '?' then procInst e cur s.tail
  else ezxmlErr cur "unexpected <"

/-- The loop of `ezxml_parse_str`. -/
def parseLoop (e : Char) : ℕ → Cursor → CStr → Except Halt Root
  | 0, cur, _ => .ok ⟨cur, []⟩
  | fuel + 1, cur, s => do
    match ← turn e cur s with
    | .stop root => return root
    | .next cur s => parseLoop e fuel cur s

/-! ### Files -/

/-- `ezxml_str2utf8`: the bytes of a character. -/
def utf8Bytes (c : ℕ) : List ℕ :=
  if c < 0x80 then [c]
  else
    let b := (c.size - 2) / 5
    (0xff <<< (7 - b) ||| c >>> (6 * b)) % 256 ::
      (List.range b).reverse.map fun i => 0x80 ||| (c >>> (6 * i) &&& 0x3f)

/-- `ezxml_str2utf8`: a 16-bit unit. -/
def unit (be : Bool) (b₀ b₁ : ℕ) : ℕ := if be then b₀ <<< 8 ||| b₁ else b₁ <<< 8 ||| b₀

/-- `ezxml_str2utf8`: the loop; a byte without a second one is not read. -/
def str2utf8Loop (be : Bool) : List ℕ → List ℕ
  | b₀ :: b₁ :: s =>
    let c := unit be b₀ b₁
    if 0xd800 ≤ c ∧ c ≤ 0xdfff then
      match s with
      | b₂ :: b₃ :: s =>
        let d := unit be b₂ b₃
        utf8Bytes (((c &&& 0x3ff) <<< 10 ||| (d &&& 0x3ff)) + 0x10000) ++ str2utf8Loop be s
      | _ => utf8Bytes c
    else utf8Bytes c ++ str2utf8Loop be s
  | _ => []

/-- `ezxml_str2utf8`; the source looks at the first byte of the mark only. -/
def ezxmlStr2utf8 (s : List ℕ) : List ℕ :=
  if s.head? = some 0xfe then str2utf8Loop true (s.drop 2)
  else if s.head? = some 0xff then str2utf8Loop false (s.drop 2)
  else s

/-- The buffer that is parsed. -/
def buffer (bytes : List UInt8) : CStr :=
  (ezxmlStr2utf8 (bytes.map UInt8.toNat)).map Char.ofNat

/-- `ezxml_parse_str` behind the conversion; `e` is the last character of the buffer. -/
def parseText (e : Char) (s : CStr) : Except Halt Root :=
  match s.dropWhile (· ≠ '<') with
  | [] => .ok ⟨.fresh, "root tag missing".toList⟩
  | _ :: s => parseLoop e (s.length + 1) .fresh s

/-- `ezxml_parse_str`. -/
def ezxmlParseStr (bytes : List UInt8) : Except Halt Root :=
  if bytes = [] then .ok ⟨.fresh, "root tag missing".toList⟩
  else
    match (buffer bytes).getLast? with
    | none => .error .behind
    | some e => parseText e ((buffer bytes).dropLast.takeWhile (· ≠ Char.ofNat 0))

/-- The element of a group as the reader of profiles sees it. -/
def Tree.element (t : Tree) : Element where
  name := String.ofList t.tag.name
  txt := String.ofList t.tag.txt
  selfClosing := t.tag.selfClosing

/-- The tree as the reader of profiles sees it. -/
def Root.document (root : Root) : Document :=
  match root.cur.tree with
  | none => ⟨none, [], none⟩
  | some t =>
    { name := some (String.ofList t.tag.name)
      attrs := t.tag.attr.map fun a => (String.ofList a.1, String.ofList a.2)
      child := t.children.head?.map fun group =>
        ⟨String.ofList group.tag.name, group.children.map Tree.element⟩ }

end Ezxml

end Fuji
