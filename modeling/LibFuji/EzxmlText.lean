/-
XML texts, and that the parser recovers what they say.

A text is written down as `XmlText`: its root, an element with attributes and content, which
are texts, elements, CDATA sections, comments and processing instructions in any order, with
every choice that a writer has: blanks in tags, the kind of the quotes, and the ways to write a
character (`Escaped`).  Comments, processing instructions and a document type without an internal
subset may stand around it; what the parser runs over is left out, a text or a value that ends in a bare
`\r`.  `XmlText.print` is the text itself and `XmlText.tree` the tree it stands for.

* `Node.resume_turn`, `Content.resume_after` — a node, and the content of an element, leave the
  parser behind them with the tree they stand for.
* `ezxmlParseStr_of_print` — a text in the buffer is read back as its tree, without an error.
-/
import LibFuji.EzxmlTurn

namespace Fuji

namespace Ezxml

/-! ### Texts as they are written -/

/-- Blanks. -/
def Blank (s : CStr) : Prop := ∀ c ∈ s, isWs c = true

instance (s : CStr) : Decidable (Blank s) := List.decidableBAll _ s

/-- The text between two tags. -/
structure Text where
  raw : CStr
  txt : CStr
  escaped : Escaped '&' raw txt
  plain : '<' ∉ raw

/-- An attribute with the blanks in front of it. -/
structure Attr where
  space : CStr
  name : CStr
  before : CStr
  after : CStr
  quote : Char
  raw : CStr
  value : CStr
  space_ne : space ≠ []
  space_blank : Blank space
  name_ne : name ≠ []
  name_plain : ∀ c ∈ name, endsAttr c = false ∧ isSpace c = false
  before_blank : Blank before
  after_blank : Blank after
  quote_eq : quote = '"' ∨ quote = '\''
  escaped : Escaped ' ' raw value
  plain : quote ∉ raw

/-- An attribute behind its name. -/
def Attr.assign (a : Attr) : CStr := a.before ++ '=' :: (a.after ++ a.quote :: (a.raw ++ [a.quote]))

def Attr.print (a : Attr) : CStr := a.space ++ (a.name ++ a.assign)

def printAttrs (attrs : List Attr) : CStr := attrs.flatMap Attr.print

/-- A tag without its brackets. -/
structure TagText where
  name : CStr
  attrs : List Attr
  space : CStr
  name_start : name.head?.any startsName = true
  name_plain : ∀ c ∈ name, endsName c = false
  space_blank : Blank space

def TagText.print (t : TagText) : CStr := t.name ++ (printAttrs t.attrs ++ t.space)

/-- The attributes of a tag. -/
def TagText.attr (t : TagText) : List (CStr × CStr) := t.attrs.map fun a => (a.name, a.value)

/-- The text of a CDATA section. -/
structure CdataText where
  text : CStr
  plain : ¬ [']', ']', '>'] <:+: text ++ [']', ']']
  lines : runsOn text = false

/-- The text of a comment. -/
structure CommentText where
  text : CStr
  plain : ¬ ['-', '-'] <:+: text ++ ['-']

/-- The text of a processing instruction. -/
structure InstText where
  text : CStr
  plain : ¬ ['?', '>'] <:+: '?' :: text

mutual

/-- What may stand in an element besides texts. -/
inductive Node
  /-- an element, with the blanks in its closing tag -/
  | element (tag : TagText) (content : Content) (space : {s : CStr // Blank s})
  | empty (tag : TagText)
  | cdata (c : CdataText)
  | comment (c : CommentText)
  | inst (i : InstText)

/-- The content of an element. -/
inductive Content
  | text (t : Text)
  | cons (t : Text) (n : Node) (c : Content)

end

mutual

/-- A node without its outer brackets. -/
def Node.body : Node → CStr
  | .element tag content space =>
    tag.print ++ '>' :: (content.print ++ '<' :: '/' :: (tag.name ++ space.1))
  | .empty tag => tag.print ++ ['/']
  | .cdata c => ['!', '[', 'C', 'D', 'A', 'T', 'A', '['] ++ (c.text ++ [']', ']'])
  | .comment c => ['!', '-', '-'] ++ (c.text ++ ['-', '-'])
  | .inst i => '?' :: (i.text ++ ['?'])

def Content.print : Content → CStr
  | .text t => t.raw
  | .cons t n c => t.raw ++ '<' :: (n.body ++ '>' :: c.print)

end

/-! ### What they stand for -/

/-- A text behind the text that is there. -/
def Frame.addText (f : Frame) (txt : CStr) : Frame :=
  { f with tag := { f.tag with txt := f.tag.txt ++ txt } }

/-- A tag that has been opened. -/
def TagText.frame (t : TagText) (off : ℕ) (selfClosing : Bool) : Frame :=
  ⟨⟨t.name, t.attr, [], off, selfClosing⟩, []⟩

mutual

/-- What a node adds to the element around it. -/
def Node.add : Node → Frame → Frame
  | .element tag content _, f =>
    f.insert (content.add (tag.frame f.tag.txt.length false)).tree
  | .empty tag, f => f.insert (tag.frame f.tag.txt.length true).tree
  | .cdata c, f => f.addText (normalize c.text)
  | .comment _, f => f
  | .inst _, f => f

def Content.add : Content → Frame → Frame
  | .text t, f => f.addText t.txt
  | .cons t n c, f => c.add (n.add (f.addText t.txt))

end

@[simp] theorem Frame.addText_nil (f : Frame) : f.addText [] = f := by
  rw [addText, List.append_nil]

@[simp] theorem Frame.addText_name (f : Frame) (txt : CStr) :
    (f.addText txt).tag.name = f.tag.name := rfl

@[simp] theorem Frame.insert_tag (f : Frame) (t : Tree) : (f.insert t).tag = f.tag := rfl

theorem Node.add_name (n : Node) (f : Frame) : (n.add f).tag.name = f.tag.name := by
  cases n with
  | element tag content space => rw [Node.add, Frame.insert_tag]
  | empty tag => rw [Node.add, Frame.insert_tag]
  | cdata c => rw [Node.add, Frame.addText_name]
  | comment c => rw [Node.add]
  | inst i => rw [Node.add]

theorem Content.add_name (c : Content) (f : Frame) : (c.add f).tag.name = f.tag.name := by
  match c with
  | .text t => rw [Content.add, Frame.addText_name]
  | .cons t n c => rw [Content.add, c.add_name, n.add_name, Frame.addText_name]

/-! ### Running the parser -/

/-- The parser from behind a `<` on. -/
def run (e : Char) (cur : Cursor) (s : CStr) : Except Halt Root :=
  parseLoop e (s.length + 1) cur s

/-- The parser behind a turn. -/
def resume (e : Char) : Except Halt Turn → Except Halt Root
  | .error halt => .error halt
  | .ok (.stop root) => .ok root
  | .ok (.next cur s) => run e cur s

theorem run_eq (e : Char) (cur : Cursor) (s : CStr) : run e cur s = resume e (turn e cur s) := by
  have hturn := turn_run e cur s
  rw [run, parseLoop]
  generalize turn e cur s = r at hturn ⊢
  cases hturn with
  | halt h => rfl
  | error hops herr => rfl
  | finish hops => rfl
  | next hops hleft hlt => exact parseLoop_fuel hlt (Nat.lt_succ_self _)

/-- Markup ends with `>`, which the end of the buffer may have replaced. -/
def Ends (e : Char) (s : CStr) : Prop := s.head? = some '>' ∨ s = [] ∧ e = '>'

theorem takeWhile_stop {p : Char → Bool} {a b : CStr} (ha : ∀ c ∈ a, p c = true)
    (hb : b.head?.all (!p ·) = true) : (a ++ b).takeWhile p = a ∧ (a ++ b).dropWhile p = b := by
  cases b with
  | nil =>
    rw [List.append_nil]
    exact ⟨List.takeWhile_eq_self_iff.mpr ha, List.dropWhile_eq_nil_iff.mpr ha⟩
  | cons c b =>
    have hc : ¬ p c = true := by simpa using hb
    rw [List.takeWhile_append_of_pos ha, List.dropWhile_append_of_pos ha,
      List.takeWhile_cons_of_neg hc, List.dropWhile_cons_of_neg hc, List.append_nil]
    exact ⟨rfl, rfl⟩

theorem Blank.isSpace {s : CStr} (h : Blank s) : ∀ c ∈ s, isSpace c = true := by
  intro c hc
  have hws := h c hc
  simp only [isWs, Bool.decide_or, Bool.or_eq_true, decide_eq_true_eq] at hws
  rcases hws with rfl | rfl | rfl | rfl <;> rfl

theorem quote_not_blank {q : Char} (hq : q = '"' ∨ q = '\'') : isWs q = false ∧ q ≠ '=' := by
  rcases hq with rfl | rfl <;> decide

/-! ### Tags -/

theorem attrValue_assign (a : Attr) (rest : CStr) :
    attrValue (a.assign ++ rest) = .ok (.inl (a.value, rest)) := by
  have hassign : a.assign ++ rest
      = a.before ++ '=' :: (a.after ++ a.quote :: (a.raw ++ a.quote :: rest)) := by
    simp [Attr.assign]
  obtain ⟨hws, heq⟩ := quote_not_blank a.quote_eq
  -- the blanks and the = are skipped, of which the first is cut off
  have hskip : (a.assign ++ rest).tail.dropWhile (fun c => decide (isWs c = true ∨ c = '='))
      = a.quote :: (a.raw ++ a.quote :: rest) := by
    have hstop {b : CStr} (hb : ∀ c ∈ b, isWs c = true ∨ c = '=') :=
      (takeWhile_stop (p := fun c => decide (isWs c = true ∨ c = '='))
        (b := a.quote :: (a.raw ++ a.quote :: rest)) (by simpa using hb) (by simp [hws, heq])).2
    rw [hassign]
    rcases hbefore : a.before with _ | ⟨b, before⟩
    · exact hstop fun c hc => .inl (a.after_blank c hc)
    · have hblank : Blank before := fun c hc =>
        a.before_blank c (hbefore ▸ List.mem_cons_of_mem b hc)
      rw [List.cons_append, List.tail_cons, ← List.cons_append, ← List.append_assoc]
      refine hstop fun c hc => ?_
      rcases List.mem_append.mp hc with hc | hc
      · exact .inl (hblank c hc)
      · rcases List.mem_cons.mp hc with rfl | hc
        · exact .inr rfl
        · exact .inl (a.after_blank c hc)
  have hhead : (a.assign ++ rest).head? = some '=' ∨ (a.assign ++ rest).head?.any isSpace := by
    rw [hassign]
    rcases hbefore : a.before with _ | ⟨b, before⟩
    · exact .inl rfl
    · refine .inr ?_
      have hb := a.before_blank.isSpace b (by rw [hbefore]; exact List.mem_cons_self ..)
      simpa using hb
  have hraw := takeWhile_stop (p := fun c => decide (c ≠ a.quote)) (a := a.raw)
    (b := a.quote :: rest) (fun c hc => by
      rw [decide_eq_true_eq]
      rintro rfl
      exact a.plain hc) (by simp)
  rw [attrValue, if_pos hhead, hskip]
  simp only
  rw [if_pos a.quote_eq, hraw.1, hraw.2]
  simp only
  rw [ezxmlDecode_escaped (by decide) a.escaped]
  rfl

theorem assign_head (a : Attr) (rest : CStr) :
    (a.assign ++ rest).head?.all endsAttr = true := by
  rw [Attr.assign]
  rcases hbefore : a.before with _ | ⟨b, before⟩
  · rfl
  · have hb := a.before_blank b (by rw [hbefore]; exact List.mem_cons_self ..)
    simp [endsAttr, hb]

/-- The attributes of a tag are recovered. -/
theorem attrLoop_print {attrs : List Attr} {space rest : CStr} (hspace : Blank space)
    (hrest : rest.head? = some '/' ∨ rest.head? = some '>') {fuel : ℕ}
    (hfuel : ((printAttrs attrs ++ (space ++ rest)).dropWhile isSpace).length < fuel) :
    attrLoop fuel ((printAttrs attrs ++ (space ++ rest)).dropWhile isSpace)
      = .ok (.inl (attrs.map fun a => (a.name, a.value), rest)) := by
  induction attrs generalizing fuel with
  | nil =>
    obtain ⟨fuel, rfl⟩ : ∃ f, fuel = f + 1 := ⟨fuel - 1, by omega⟩
    have hstop := (takeWhile_stop (b := rest) hspace.isSpace (by
      obtain ⟨c, rest, rfl⟩ : ∃ c r, rest = c :: r := by
        cases rest with
        | nil => simp at hrest
        | cons c r => exact ⟨c, r, rfl⟩
      simp only [List.head?_cons, Option.some.injEq] at hrest
      rcases hrest with rfl | rfl <;> rfl)).2
    rw [printAttrs, List.flatMap_nil, List.nil_append, hstop, attrLoop, if_pos (.inr hrest)]
    rfl
  | cons a attrs ih =>
    obtain ⟨fuel, rfl⟩ : ∃ f, fuel = f + 1 := ⟨fuel - 1, by omega⟩
    generalize hmore : printAttrs attrs ++ (space ++ rest) = more at ih
    have hprint : printAttrs (a :: attrs) ++ (space ++ rest)
        = a.space ++ (a.name ++ (a.assign ++ more)) := by
      rw [← hmore, printAttrs, List.flatMap_cons, ← printAttrs, Attr.print]
      simp only [List.append_assoc]
    obtain ⟨c, name, hname⟩ := List.exists_cons_of_ne_nil a.name_ne
    obtain ⟨hends, hnospace⟩ := a.name_plain c (by rw [hname]; exact List.mem_cons_self ..)
    have hskip := (takeWhile_stop (b := a.name ++ (a.assign ++ more)) a.space_blank.isSpace
      (by rw [hname]; simp [hnospace])).2
    have hstop := takeWhile_stop (p := (!endsAttr ·)) (a := a.name) (b := a.assign ++ more)
      (fun c hc => by simp [(a.name_plain c hc).1]) (by simpa using assign_head a more)
    have hnoend : ¬ (a.name ++ (a.assign ++ more) = [] ∨
        (a.name ++ (a.assign ++ more)).head? = some '/' ∨
        (a.name ++ (a.assign ++ more)).head? = some '>') := by
      rw [hname]
      simp only [List.cons_append, List.head?_cons, Option.some.injEq, reduceCtorEq, false_or]
      rintro (rfl | rfl)
      · cases hends
      · cases hends
    have hless : (more.dropWhile isSpace).length < fuel := by
      have hle := (List.dropWhile_suffix isSpace (l := more)).length_le
      rw [hprint, hskip, hname] at hfuel
      simp only [List.cons_append, List.length_cons, List.length_append] at hfuel
      omega
    rw [hprint, hskip, attrLoop, if_neg hnoend, hstop.1, hstop.2, attrValue_assign]
    simp only [bind, Except.bind]
    rw [ih hless]
    rfl

theorem printAttrs_head {attrs : List Attr} {space rest : CStr} (hspace : Blank space)
    (hrest : rest.head? = some '/' ∨ rest.head? = some '>') :
    (printAttrs attrs ++ (space ++ rest)).head?.all endsName = true := by
  have hws {c : Char} (hc : isWs c = true) : endsName c = true := by simp [endsName, hc]
  rcases attrs with _ | ⟨a, attrs⟩
  · rcases space with _ | ⟨c, space⟩
    · rw [printAttrs, List.flatMap_nil, List.nil_append, List.nil_append]
      rcases hrest with h | h
      · rw [h]; rfl
      · rw [h]; rfl
    · simpa [printAttrs] using hws (hspace c (by simp))
  · obtain ⟨c, s, hs⟩ := List.exists_cons_of_ne_nil a.space_ne
    have hc := a.space_blank c (by rw [hs]; simp)
    simpa [printAttrs, Attr.print, hs] using hws hc

/-- A tag is recovered up to its end. -/
theorem newTag_print {e : Char} {cur : Cursor} (hcur : ∀ root, cur ≠ .closed root) (t : TagText)
    {rest : CStr} (hrest : rest.head? = some '/' ∨ rest.head? = some '>') :
    newTag e cur (t.print ++ rest) = tagEnd e cur t.name t.attr rest := by
  have hprint : t.print ++ rest = t.name ++ (printAttrs t.attrs ++ (t.space ++ rest)) := by
    rw [TagText.print]
    simp only [List.append_assoc]
  have hstop := takeWhile_stop (p := (!endsName ·)) (a := t.name)
    (b := printAttrs t.attrs ++ (t.space ++ rest)) (fun c hc => by simp [t.name_plain c hc])
    (by simpa using printAttrs_head t.space_blank hrest)
  have htag : newTag e cur (t.print ++ rest) = tagAttrs e cur t.name
      ((printAttrs t.attrs ++ (t.space ++ rest)).dropWhile isSpace) := by
    rw [hprint, newTag.eq_def]
    split
    · exact absurd rfl (hcur _)
    · rw [hstop.1, hstop.2]
  rw [htag, tagAttrs, attrLoop_print t.space_blank hrest (Nat.lt_succ_self _)]
  rfl

theorem not_starts {c : Char} (hc : startsName c = false) (s : CStr) :
    ¬ (c :: s).head?.any startsName = true := by
  simpa using hc

theorem turn_tag {e : Char} {cur : Cursor} (hcur : ∀ root, cur ≠ .closed root) (t : TagText)
    {rest : CStr} (hrest : rest.head? = some '/' ∨ rest.head? = some '>') :
    turn e cur (t.print ++ rest) = tagEnd e cur t.name t.attr rest := by
  have hstart : (t.print ++ rest).head?.any startsName = true := by
    obtain ⟨c, name, hname⟩ : ∃ c name, t.name = c :: name := by
      cases hn : t.name with
      | nil =>
        have hstart := t.name_start
        rw [hn] at hstart
        cases hstart
      | cons c name => exact ⟨c, name, rfl⟩
    have hc := t.name_start
    rw [hname] at hc
    rw [TagText.print, hname]
    exact hc
  rw [turn, if_pos hstart, newTag_print hcur t hrest]

/-- The tag that opens an element. -/
theorem turn_open {e : Char} {cur : Cursor} (hcur : ∀ root, cur ≠ .closed root) (t : TagText)
    (rest : CStr) : turn e cur (t.print ++ '>' :: rest)
      = afterMarkup (ezxmlOpenTag cur t.name t.attr false) ('>' :: rest) := by
  rw [turn_tag hcur t (.inr rfl), tagEnd.eq_def]
  exact if_pos (.inl rfl)

/-- An element that is one tag. -/
theorem turn_empty {e : Char} {cur : Cursor} (hcur : ∀ root, cur ≠ .closed root) (t : TagText)
    {s : CStr} (hs : Ends e s) :
    turn e cur (t.print ++ '/' :: s) = afterMarkup (emptyElement cur t.name t.attr) s := by
  rw [turn_tag hcur t (.inl rfl), tagEnd.eq_def]
  refine if_neg ?_
  rintro (hany | ⟨rfl, he⟩)
  · rcases hs with h | ⟨rfl, -⟩
    · rw [h] at hany
      cases hany
    · cases hany
  · rcases hs with h | ⟨-, h⟩
    · cases h
    · exact he h

/-- A closing tag. -/
theorem turn_close {e : Char} {cur cur' : Cursor} (t : TagText) {space s : CStr}
    (hspace : Blank space) (hs : Ends e s) (hclose : ezxmlCloseTag cur t.name = some cur') :
    turn e cur ('/' :: (t.name ++ (space ++ s))) = afterMarkup cur' s := by
  have hplain : ∀ c ∈ t.name, (!endsClosing c) = true := by
    intro c hc
    have hname := t.name_plain c hc
    simp only [endsName, Bool.decide_or, Bool.or_eq_false_iff, decide_eq_false_iff_not] at hname
    simp [endsClosing, hname.1, hname.2.2]
  have hhead : s.head?.all endsClosing = true := by
    rcases hs with h | ⟨rfl, -⟩
    · rw [h]; rfl
    · rfl
  have hhead' : (space ++ s).head?.all (fun c => !!endsClosing c) = true := by
    rcases hsp : space with _ | ⟨c, space'⟩
    · simpa using hhead
    · have hws := hspace c (by rw [hsp]; exact List.mem_cons_self ..)
      simp [endsClosing, hws]
  have hstop := takeWhile_stop hplain hhead'
  have hskip : (if (space ++ s).head?.any isSpace = true then (space ++ s).dropWhile isWs
      else space ++ s) = s := by
    have hnows : s.head?.any isSpace = false ∧ s.head?.all (!isWs ·) = true := by
      rcases hs with h | ⟨rfl, -⟩
      · rw [h]; exact ⟨rfl, rfl⟩
      · exact ⟨rfl, rfl⟩
    rcases hsp : space with _ | ⟨c, space'⟩
    · rw [List.nil_append, if_neg (by rw [hnows.1]; decide)]
    · have hc := hspace.isSpace c (by rw [hsp]; exact List.mem_cons_self ..)
      rw [← hsp, if_pos (by rw [hsp]; exact hc), (takeWhile_stop hspace hnows.2).2]
  have hnone : ¬ (space ++ s = [] ∧ e ≠ '>') := by
    rintro ⟨hnil, he⟩
    obtain ⟨-, rfl⟩ := List.append_eq_nil_iff.mp hnil
    rcases hs with h | ⟨-, h⟩
    · cases h
    · exact he h
  rw [turn, if_neg (not_starts rfl _), if_pos List.head?_cons, List.tail_cons, closingTag,
    hstop.1, hstop.2, closingEnd, if_neg hnone, hclose]
  simp only
  rw [hskip]

/-! ### Other markup -/

/-- The first occurrence of a word. -/
theorem cutAt_append {word text : CStr} (hword : word ≠ []) (h : ¬ word <:+: text ++ word.dropLast)
    (rest : CStr) : cutAt word (text ++ (word ++ rest)) = some (text, rest) := by
  induction text with
  | nil =>
    obtain ⟨c, w, rfl⟩ := List.exists_cons_of_ne_nil hword
    rw [List.nil_append, List.cons_append, cutAt, if_pos ⟨rest, rfl⟩]
    simp
  | cons c text ih =>
    have hno : ¬ word <+: c :: (text ++ (word ++ rest)) := by
      intro hstart
      have htext : c :: text ++ word.dropLast <+: c :: (text ++ (word ++ rest)) := by
        rw [List.cons_append, List.prefix_cons_inj, List.prefix_append_right_inj]
        exact List.IsPrefix.trans (List.dropLast_prefix word) (List.prefix_append word rest)
      refine h (List.prefix_of_prefix_length_le hstart htext ?_).isInfix
      simp only [List.cons_append, List.length_cons, List.length_append, List.length_dropLast]
      omega
    have hrest : ¬ word <:+: text ++ word.dropLast := fun hin =>
      h (hin.trans (List.suffix_cons c _).isInfix)
    rw [List.cons_append, cutAt, if_neg hno, ih hrest]
    rfl

theorem turn_comment {e : Char} (cur : Cursor) (c : CommentText) {s : CStr} (hs : Ends e s) :
    turn e cur ((Node.comment c).body ++ s) = afterMarkup cur s := by
  have hbody : (Node.comment c).body ++ s
      = '!' :: '-' :: '-' :: (c.text ++ (['-', '-'] ++ s)) := by
    simp [Node.body]
  have hends : ¬ (s.head?.any (· ≠ '>') ∨ s = [] ∧ e ≠ '>') := by
    rcases hs with h | ⟨rfl, rfl⟩
    · rw [h]
      rintro (hany | ⟨rfl, -⟩)
      · cases hany
      · cases h
    · simp
  rw [hbody, turn, if_neg (not_starts rfl _), if_neg (by simp), if_pos (by simp)]
  show comment e cur (c.text ++ (['-', '-'] ++ s)) = _
  rw [comment, cutAt_append (by decide) c.plain]
  exact if_neg hends

theorem turn_cdata {e : Char} (cur : Cursor) (c : CdataText) (rest : CStr) :
    turn e cur ((Node.cdata c).body ++ '>' :: rest)
      = ezxmlCharContent cur c.text 'c' rest >>= fun r => afterMarkup r.1 ('>' :: r.2) := by
  have hbody : (Node.cdata c).body ++ '>' :: rest = '!' :: '[' :: 'C' :: 'D' :: 'A' :: 'T' ::
      'A' :: '[' :: (c.text ++ ([']', ']', '>'] ++ rest)) := by
    simp [Node.body]
  rw [hbody, turn, if_neg (not_starts rfl _), if_neg (by simp), if_neg (by simp), if_pos (by simp)]
  show cdata cur (c.text ++ ([']', ']', '>'] ++ rest)) = _
  rw [cdata, cutAt_append (by decide) c.plain]

theorem instEnd_append {e : Char} {quest : Bool} {text : CStr}
    (h : ¬ ['?', '>'] <:+: (if quest then '?' :: text else text)) {s : CStr} (hs : Ends e s) :
    instEnd quest (text ++ '?' :: s) = some s := by
  induction text generalizing quest with
  | nil =>
    rw [List.nil_append, instEnd, if_neg (by simp)]
    rcases hs with hhead | ⟨rfl, -⟩
    · obtain ⟨rest, rfl⟩ : ∃ rest, s = '>' :: rest := by
        cases s with
        | nil => cases hhead
        | cons c rest => exact ⟨rest, by rw [Option.some.inj hhead]⟩
      rw [instEnd, if_pos (by simp)]
    · rfl
  | cons c text ih =>
    have hno : ¬ (quest = true ∧ c = '>') := by
      rintro ⟨rfl, rfl⟩
      exact h ⟨[], text, rfl⟩
    rw [List.cons_append, instEnd, if_neg hno]
    refine ih fun hin => h (hin.trans ?_)
    have hsuffix : c :: text <:+: (if quest = true then '?' :: c :: text else c :: text) := by
      split
      · exact (List.suffix_cons '?' _).isInfix
      · exact List.infix_refl _
    refine List.IsInfix.trans ?_ hsuffix
    by_cases hc : c = '?'
    · rw [if_pos (by simpa using hc), hc]
    · rw [if_neg (by simpa using hc)]
      exact (List.suffix_cons c text).isInfix

theorem turn_inst {e : Char} (cur : Cursor) (i : InstText) {s : CStr} (hs : Ends e s) :
    turn e cur ((Node.inst i).body ++ s) = afterMarkup cur s := by
  have hbody : (Node.inst i).body ++ s = '?' :: (i.text ++ '?' :: s) := by simp [Node.body]
  have hnone : ¬ (s = [] ∧ e ≠ '>') := by
    rintro ⟨rfl, he⟩
    rcases hs with h | ⟨-, h⟩
    · cases h
    · exact he h
  have hplain : ¬ ['?', '>'] <:+: (if true = true then '?' :: i.text else i.text) := i.plain
  have hend : instEnd true (i.text ++ '?' :: s) = some s := instEnd_append hplain hs
  have hrest : ezxmlProcInst (i.text ++ '?' :: s) s = s := by
    refine if_neg fun heq => ?_
    have hlen := congrArg List.length heq
    simp only [List.length_append, List.length_cons] at hlen
    omega
  rw [hbody, turn, if_neg (not_starts rfl _), if_neg (by simp), if_neg (by simp),
    if_neg (by simp), if_neg (by simp), if_pos List.head?_cons, List.tail_cons, procInst, hend]
  simp only
  rw [if_neg hnone, hrest]

/-! ### Nodes and contents -/

/-- A text is added to the element that is open. -/
theorem afterMarkup_text (f : Frame) (ps : List Frame) (t : Text) (rest : CStr) :
    afterMarkup (.inside f ps) ('>' :: (t.raw ++ '<' :: rest))
      = .ok (.next (.inside (f.addText t.txt) ps) rest) := by
  have hescaped := t.escaped
  have hplain := t.plain
  generalize t.raw = raw at hescaped hplain ⊢
  generalize t.txt = txt at hescaped ⊢
  rcases raw with _ | ⟨c, raw⟩
  · cases hescaped
    rw [Frame.addText_nil]
    rfl
  · have hc : c ≠ '<' := fun h => hplain (h ▸ List.mem_cons_self ..)
    have hstop := takeWhile_stop (p := fun c => decide (c ≠ '<')) (a := c :: raw)
      (b := '<' :: rest) (fun d hd => by
        rw [decide_eq_true_eq]
        rintro rfl
        exact hplain hd) rfl
    rw [afterMarkup.eq_def]
    simp only [List.tail_cons, List.cons_append]
    split
    · rename_i heq
      cases heq
    · rename_i heq
      exact absurd (List.cons.inj heq).1 hc
    · rw [← List.cons_append, hstop.1, hstop.2]
      simp only [ezxmlCharContent, if_neg (List.cons_ne_nil c raw)]
      rw [ezxmlDecode_escaped (by decide) hescaped]
      rfl

theorem ezxmlCharContent_cdata (f : Frame) (ps : List Frame) (c : CdataText) (rest : CStr) :
    ezxmlCharContent (.inside f ps) c.text 'c' rest
      = .ok (.inside (f.addText (normalize c.text)) ps, rest) := by
  rw [ezxmlCharContent.eq_def]
  simp only
  split
  · rename_i hnil
    rw [hnil]
    exact congrArg (fun g => Except.ok (Cursor.inside g ps, rest)) (Frame.addText_nil f).symm
  · rw [ezxmlDecode_cdata c.lines]
    rfl

mutual

/-- **A node** leaves the parser behind it with what it adds to the element around it. -/
theorem Node.resume_turn (e : Char) (n : Node) (f : Frame) (ps : List Frame) (rest : CStr) :
    resume e (turn e (.inside f ps) (n.body ++ '>' :: rest))
      = resume e (afterMarkup (.inside (n.add f) ps) ('>' :: rest)) := by
  have hinside : ∀ root, Cursor.inside f ps ≠ .closed root := by simp
  match n with
  | .element tag content space =>
    have hbody : (Node.element tag content space).body ++ '>' :: rest = tag.print ++ '>' ::
        (content.print ++ '<' :: '/' :: (tag.name ++ (space.1 ++ '>' :: rest))) := by
      simp [Node.body]
    have hopen : ezxmlOpenTag (.inside f ps) tag.name tag.attr false
        = .inside (tag.frame f.tag.txt.length false) (f :: ps) := rfl
    have hclose : ezxmlCloseTag
        (.inside (content.add (tag.frame f.tag.txt.length false)) (f :: ps)) tag.name
          = some (.inside ((Node.element tag content space).add f) ps) := by
      rw [ezxmlCloseTag, if_neg (by rw [content.add_name]; exact not_not.mpr rfl), Node.add]
    rw [hbody, turn_open hinside, hopen, content.resume_after, run_eq,
      turn_close tag space.2 (.inl rfl) hclose]
  | .empty tag =>
    have hbody : (Node.empty tag).body ++ '>' :: rest = tag.print ++ '/' :: '>' :: rest := by
      simp [Node.body]
    have helement : emptyElement (.inside f ps) tag.name tag.attr
        = .inside ((Node.empty tag).add f) ps := by
      simp [emptyElement, ezxmlOpenTag, ezxmlCloseTag, Node.add, TagText.frame]
    rw [hbody, turn_empty hinside tag (.inl rfl), helement]
  | .cdata c =>
    rw [turn_cdata, ezxmlCharContent_cdata, Node.add]
    rfl
  | .comment c => rw [turn_comment _ c (.inl rfl), Node.add]
  | .inst i => rw [turn_inst _ i (.inl rfl), Node.add]

/-- **The content of an element** leaves the parser behind it with what it adds. -/
theorem Content.resume_after (e : Char) (c : Content) (f : Frame) (ps : List Frame) (rest : CStr) :
    resume e (afterMarkup (.inside f ps) ('>' :: (c.print ++ '<' :: rest)))
      = run e (.inside (c.add f) ps) rest := by
  match c with
  | .text t =>
    rw [Content.print, afterMarkup_text, Content.add]
    rfl
  | .cons t n c =>
    have hprint : (Content.cons t n c).print ++ '<' :: rest
        = t.raw ++ '<' :: (n.body ++ '>' :: (c.print ++ '<' :: rest)) := by
      simp [Content.print]
    rw [hprint, afterMarkup_text, resume, run_eq, n.resume_turn, c.resume_after, Content.add]

end

/-! ### Whole texts -/

/-- What may stand in front of the root, and behind it. -/
inductive Misc
  | comment (c : CommentText)
  | inst (i : InstText)
  /-- a document type without an internal subset -/
  | doctype (text : {s : CStr // ∀ c ∈ s, c ≠ '[' ∧ c ≠ ']' ∧ c ≠ '>'})

def Misc.body : Misc → CStr
  | comment c => (Node.comment c).body
  | inst i => (Node.inst i).body
  | doctype text => ['!', 'D', 'O', 'C', 'T', 'Y', 'P', 'E'] ++ text.1

/-- A text without `<`. -/
abbrev Plain : Type := {s : CStr // '<' ∉ s}

/-- The root. -/
inductive RootText
  | element (tag : TagText) (content : Content) (space : {s : CStr // Blank s})
  | empty (tag : TagText)

def RootText.node : RootText → Node
  | element tag content space => .element tag content space
  | empty tag => .empty tag

def RootText.tag : RootText → TagText
  | element tag _ _ => tag
  | empty tag => tag

/-- The root when it is closed. -/
def RootText.frame : RootText → Frame
  | element tag content _ => content.add (tag.frame 0 false)
  | empty tag => tag.frame 0 true

/-- An XML text: its root, and what stands around it. -/
structure XmlText where
  lead : Plain
  prolog : List (Misc × Plain)
  root : RootText
  trail : Plain
  epilog : List (Misc × Plain)

/-- What stands around the root, with the texts behind it. -/
def printMisc : List (Misc × Plain) → CStr
  | [] => []
  | (m, t) :: ms => '<' :: (m.body ++ '>' :: (t.1 ++ printMisc ms))

/-- An XML text as it is written. -/
def XmlText.print (d : XmlText) : CStr :=
  d.lead.1 ++ (printMisc d.prolog ++
    '<' :: (d.root.node.body ++ '>' :: (d.trail.1 ++ printMisc d.epilog)))

/-- The tree it stands for. -/
def XmlText.tree (d : XmlText) : Tree := d.root.frame.tree

/-- Outside of the root a text is passed over. -/
theorem afterMarkup_plain {cur : Cursor} (hcur : ∀ f ps, cur ≠ .inside f ps) {text : CStr}
    (htext : '<' ∉ text) (rest : CStr) :
    afterMarkup cur ('>' :: (text ++ '<' :: rest)) = .ok (.next cur rest) := by
  have hchar (t : CStr) (c : Char) : ezxmlCharContent cur t c rest = .ok (cur, rest) := by
    cases cur with
    | inside f ps => exact absurd rfl (hcur f ps)
    | fresh => rfl
    | closed root => rfl
  have hstop := takeWhile_stop (p := fun c => decide (c ≠ '<')) (a := text)
    (b := '<' :: rest) (fun d hd => by
      rw [decide_eq_true_eq]
      rintro rfl
      exact htext hd) rfl
  rw [afterMarkup.eq_def]
  simp only [List.tail_cons]
  split
  · rename_i heq
    simp at heq
  · rename_i s heq
    rcases text with _ | ⟨c, text⟩
    · cases heq
      rfl
    · exact absurd ((List.cons.inj heq).1 ▸ List.mem_cons_self ..) htext
  · rw [hstop.1, hstop.2]
    simp only
    rw [hchar]
    rfl

theorem turn_misc {e : Char} (cur : Cursor) (m : Misc) {s : CStr} (hs : Ends e s) :
    turn e cur (m.body ++ s) = afterMarkup cur s := by
  cases m with
  | comment c => exact turn_comment cur c hs
  | inst i => exact turn_inst cur i hs
  | doctype text =>
    have hbody : (Misc.doctype text).body ++ s = '!' :: 'D' :: 'O' :: 'C' :: 'T' :: 'Y' :: 'P' ::
        'E' :: (text.1 ++ s) := by
      simp [Misc.body]
    have hstop := takeWhile_stop (p := fun c => decide ¬ (c = '[' ∨ c = ']' ∨ c = '>'))
      (a := ['D', 'O', 'C', 'T', 'Y', 'P', 'E'] ++ text.1) (b := s) (fun c hc => by
        rw [decide_eq_true_eq]
        rcases List.mem_append.mp hc with hc | hc
        · fin_cases hc <;> decide
        · obtain ⟨h₁, h₂, h₃⟩ := text.2 c hc
          simp [h₁, h₂, h₃]) (by
        rcases hs with h | ⟨rfl, -⟩
        · rw [h]; rfl
        · rfl)
    have hend : doctypeEnd (('!' :: (['D', 'O', 'C', 'T', 'Y', 'P', 'E'] ++ text.1 ++ s)).length + 1)
        false ('!' :: (['D', 'O', 'C', 'T', 'Y', 'P', 'E'] ++ text.1 ++ s)) = (false, s) := by
      rw [List.length_cons, doctypeEnd, if_pos (by simp), List.tail_cons, hstop.2, doctypeEnd]
      rcases hs with h | ⟨rfl, -⟩
      · simp [h]
      · simp
    have hnone : ¬ (s = [] ∧ e ≠ '>') := by
      rintro ⟨rfl, he⟩
      rcases hs with h | ⟨-, h⟩
      · cases h
      · exact he h
    rw [hbody, turn, if_neg (not_starts rfl _), if_neg (by simp), if_neg (by simp),
      if_neg (by simp), if_pos (by simp)]
    simp only [List.cons_append, List.nil_append] at hend
    rw [doctype, hend]
    simp only
    rw [if_neg hnone, if_neg (by simp)]

/-- Outside of the root nothing is built. -/
theorem resume_misc (e : Char) {cur : Cursor} (hcur : ∀ f ps, cur ≠ .inside f ps)
    (ms : List (Misc × Plain)) (t : Plain) (rest : CStr) :
    resume e (afterMarkup cur ('>' :: (t.1 ++ (printMisc ms ++ '<' :: rest)))) = run e cur rest := by
  induction ms generalizing t with
  | nil =>
    rw [printMisc, List.nil_append, afterMarkup_plain hcur t.2]
    rfl
  | cons m ms ih =>
    obtain ⟨m, t'⟩ := m
    have hprint : printMisc ((m, t') :: ms) ++ '<' :: rest
        = '<' :: (m.body ++ '>' :: (t'.1 ++ (printMisc ms ++ '<' :: rest))) := by
      simp [printMisc]
    rw [hprint, afterMarkup_plain hcur t.2, resume, run_eq, turn_misc cur m (.inl rfl), ih]

theorem ends_of_concat {e : Char} {s rest : CStr} (h : s ++ [e] = '>' :: rest) : Ends e s := by
  rcases s with _ | ⟨c, s⟩
  · exact .inr ⟨rfl, (List.cons.inj h).1⟩
  · obtain ⟨rfl, -⟩ := List.cons.inj h
    exact .inl rfl

/-- What follows the root is passed over, up to the last character, which is cut off. -/
theorem resume_epilog {e : Char} (tree : Tree) (ms : List (Misc × Plain)) (t : Plain) {s : CStr}
    (hs : s ++ [e] = '>' :: (t.1 ++ printMisc ms)) :
    resume e (afterMarkup (.closed tree) s) = .ok ⟨.closed tree, []⟩ := by
  induction ms generalizing t s with
  | nil =>
    have hplain : '<' ∉ s := by
      intro hmem
      have hmem' : '<' ∈ s ++ [e] := List.mem_append_left _ hmem
      rw [hs, printMisc, List.append_nil, List.mem_cons] at hmem'
      exact t.2 (hmem'.resolve_left (by decide))
    rw [afterMarkup.eq_def]
    split
    · rfl
    · rename_i rest hrest
      exact absurd (List.mem_of_mem_tail (hrest ▸ List.mem_cons_self ..)) hplain
    · have hdrop : s.tail.dropWhile (fun c => decide (c ≠ '<')) = [] := by
        rw [List.dropWhile_eq_nil_iff]
        intro c hc
        rw [decide_eq_true_eq]
        rintro rfl
        exact hplain (List.mem_of_mem_tail hc)
      rw [hdrop]
      rfl
  | cons m ms ih =>
    obtain ⟨m, t'⟩ := m
    obtain ⟨w, x, hw⟩ : ∃ w x, '>' :: (t'.1 ++ printMisc ms) = w ++ [x] := by
      rcases List.eq_nil_or_concat' ('>' :: (t'.1 ++ printMisc ms)) with h | h
      · cases h
      · exact h
    have hsplit : s ++ [e] = '>' :: (t.1 ++ '<' :: (m.body ++ w)) ++ [x] := by
      rw [hs, printMisc, hw]
      simp
    obtain ⟨rfl, hlast⟩ := List.append_inj' hsplit rfl
    obtain rfl : e = x := by simpa using hlast
    rw [afterMarkup_plain (by simp) t.2, resume, run_eq, turn_misc _ m (ends_of_concat hw.symm),
      ih t' hw.symm]

/-- The root is read. -/
theorem run_root {e : Char} (r : RootText) {s : CStr} (hs : Ends e s) :
    run e .fresh (r.node.body ++ s) = resume e (afterMarkup (.closed r.frame.tree) s) := by
  cases r with
  | element tag content space =>
    have hbody : (RootText.element tag content space).node.body ++ s = tag.print ++ '>' ::
        (content.print ++ '<' :: '/' :: (tag.name ++ (space.1 ++ s))) := by
      simp [RootText.node, Node.body]
    have hclose : ezxmlCloseTag (.inside (content.add (tag.frame 0 false)) []) tag.name
        = some (.closed (RootText.element tag content space).frame.tree) := by
      rw [ezxmlCloseTag, if_neg (by rw [content.add_name]; exact not_not.mpr rfl), RootText.frame]
    rw [hbody, run_eq, turn_open (by simp)]
    show resume e (afterMarkup (.inside (tag.frame 0 false) []) _) = _
    rw [content.resume_after, run_eq, turn_close tag space.2 hs hclose]
  | empty tag =>
    have hbody : (RootText.empty tag).node.body ++ s = tag.print ++ '/' :: s := by
      simp [RootText.node, Node.body]
    have helement : emptyElement .fresh tag.name tag.attr
        = .closed (RootText.empty tag).frame.tree := by
      simp [emptyElement, ezxmlOpenTag, ezxmlCloseTag, RootText.frame, TagText.frame]
    rw [hbody, run_eq, turn_empty (by simp) tag hs, helement]

theorem parseText_plain (e : Char) {text : CStr} (htext : '<' ∉ text) (rest : CStr) :
    parseText e (text ++ '<' :: rest) = run e .fresh rest := by
  have hstop := (takeWhile_stop (p := fun c => decide (c ≠ '<')) (a := text) (b := '<' :: rest)
    (fun c hc => by
      rw [decide_eq_true_eq]
      rintro rfl
      exact htext hc) rfl).2
  rw [parseText, hstop]
  rfl

theorem parseText_print {e : Char} (d : XmlText) {s : CStr}
    (hs : s ++ [e] = '>' :: (d.trail.1 ++ printMisc d.epilog)) :
    parseText e (d.lead.1 ++ (printMisc d.prolog ++ '<' :: (d.root.node.body ++ s)))
      = .ok ⟨.closed d.tree, []⟩ := by
  obtain ⟨p, hp⟩ : ∃ p, printMisc d.prolog ++ '<' :: (d.root.node.body ++ s) = '<' :: p := by
    rcases d.prolog with _ | ⟨⟨m, t⟩, prolog⟩
    · exact ⟨_, rfl⟩
    · exact ⟨_, rfl⟩
  -- the text in front of the first `<` might as well follow a piece of markup
  have hprolog := @resume_misc e .fresh (by simp) d.prolog d.lead (d.root.node.body ++ s)
  rw [hp, afterMarkup_plain (by simp) d.lead.2] at hprolog
  rw [hp, parseText_plain e d.lead.2]
  exact hprolog.trans ((run_root d.root (ends_of_concat hs)).trans
    (resume_epilog _ d.epilog d.trail hs))

/-- A file is parsed to the tree of the text in its buffer. -/
theorem ezxmlParseStr_of_print {bytes : List UInt8} (d : XmlText) (hbuffer : buffer bytes = d.print)
    (hnul : Char.ofNat 0 ∉ d.print) : ezxmlParseStr bytes = .ok ⟨.closed d.tree, []⟩ := by
  have hnil : bytes ≠ [] := by
    rintro rfl
    have hlen := congrArg List.length hbuffer
    simp [buffer, ezxmlStr2utf8, XmlText.print] at hlen
  -- the last character is cut off: of what follows the root, or the > of the root itself
  obtain ⟨s, e, hs⟩ : ∃ s e, '>' :: (d.trail.1 ++ printMisc d.epilog) = s ++ [e] := by
    rcases List.eq_nil_or_concat' ('>' :: (d.trail.1 ++ printMisc d.epilog)) with h | h
    · cases h
    · exact h
  have hprint : d.print
      = (d.lead.1 ++ (printMisc d.prolog ++ '<' :: (d.root.node.body ++ s))) ++ [e] := by
    rw [XmlText.print, hs]
    simp
  have hcut : ((d.lead.1 ++ (printMisc d.prolog ++ '<' :: (d.root.node.body ++ s))).takeWhile
      fun c => decide (c ≠ Char.ofNat 0))
        = d.lead.1 ++ (printMisc d.prolog ++ '<' :: (d.root.node.body ++ s)) := by
    rw [List.takeWhile_eq_self_iff]
    intro c hc
    rw [decide_eq_true_eq]
    rintro rfl
    exact hnul (by rw [hprint]; exact List.mem_append_left _ hc)
  rw [ezxmlParseStr, if_neg hnil, hbuffer, hprint, List.getLast?_concat, List.dropLast_concat]
  simp only
  rw [hcut, parseText_print d hs.symm]

end Ezxml

end Fuji
