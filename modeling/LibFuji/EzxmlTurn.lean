/-
What one turn of the parser of XML files can do, and what follows for whole files.

`turn_run` is the inversion of a turn: it ends the parse, or goes on at the next `<` with less
of the buffer, and what it does to the tree is a list of `TreeOp`s.

* `parseLoop_run` — so the parser comes to an end, and a root without an error is closed.
* `ezxmlParseStr_inside` — so a file that is `Harmless`, well formed or not, is parsed to its end
  and nothing behind the buffer is accessed; with a bare `\r` in it something may be.
-/
import LibFuji.EzxmlDecode

namespace Fuji

namespace Ezxml

/-! ### Operations on the tree -/

/-- What the parser does to the tree. -/
inductive TreeOp
  | opened (name : CStr) (attr : List (CStr × CStr)) (selfClosing : Bool)
  | closed (name : CStr)
  | text (txt : CStr)
  deriving DecidableEq, Repr

/-- An operation on the tree; `none` for a closing tag that does not belong to the open one. -/
def Cursor.apply (cur : Cursor) : TreeOp → Option Cursor
  | .opened name attr selfClosing => some (ezxmlOpenTag cur name attr selfClosing)
  | .closed name => ezxmlCloseTag cur name
  | .text txt =>
    match cur with
    | .inside frame parents =>
      some (.inside { frame with tag := { frame.tag with txt := frame.tag.txt ++ txt } } parents)
    | cur => some cur

/-- Operations one after the other. -/
def Cursor.applyAll (cur : Cursor) (ops : List TreeOp) : Option Cursor := ops.foldlM Cursor.apply cur

@[simp] theorem Cursor.applyAll_nil (cur : Cursor) : cur.applyAll [] = some cur := rfl

theorem Cursor.applyAll_cons (cur : Cursor) (op : TreeOp) (ops : List TreeOp) :
    cur.applyAll (op :: ops) = (cur.apply op).bind fun c => c.applyAll ops := rfl

theorem Cursor.applyAll_append (cur : Cursor) (ops ops' : List TreeOp) :
    cur.applyAll (ops ++ ops') = (cur.applyAll ops).bind fun c => c.applyAll ops' := by
  rw [applyAll, List.foldlM_append]
  rfl

/-! ### Ends of lines -/

/-- Every `\r` is followed by `\n`, or by the end. -/
def CrLf (s : CStr) : Prop := s.IsChain fun a b => a = '\r' → b = '\n'

instance (s : CStr) : Decidable (CrLf s) :=
  inferInstanceAs (Decidable (s.IsChain fun a b => a = '\r' → b = '\n'))

/-- In such a buffer no text in front of another character than `\n` runs on. -/
theorem CrLf.runsOn {text rest : CStr} {c : Char} (h : CrLf (text ++ c :: rest)) (hc : c ≠ '\n') :
    runsOn text = false := by
  rw [Ezxml.runsOn, decide_eq_false_iff_not]
  rintro ⟨hlast, -⟩
  exact hc ((List.isChain_append.mp h).2.2 '\r' hlast c rfl rfl)

/-- A list is what is taken, and a character that is not. -/
theorem eq_of_dropWhile {p : Char → Bool} {s rest : CStr} {c : Char}
    (h : s.dropWhile p = c :: rest) : s = s.takeWhile p ++ c :: rest ∧ p c = false := by
  refine ⟨by rw [← h, List.takeWhile_append_dropWhile], ?_⟩
  have hhead := List.head?_dropWhile_not p s
  rw [h] at hhead
  simpa using hhead

/-! ### Harmless files -/

/-- What keeps the parser inside its buffer: no bare `\r`, no internal subset of a document
type, and no character reference that does not stand for bytes.  The last is said of all that
the end of a text may leave of a reference. -/
structure Harmless (s : CStr) : Prop where
  lines : CrLf s
  noSubset : ∀ d, '>' ∉ d → ¬ ['!', 'D', 'O', 'C', 'T', 'Y', 'P', 'E'] ++ d ++ ['['] <:+: s
  references : ∀ ref, '&' :: '#' :: ref <:+: s → ∀ n rest,
    charRef (normalize ref) = some (n, rest) → ∃ bytes, refBytes n = .ok bytes

theorem Harmless.part {s s' : CStr} (h : Harmless s) (hs : s' <:+: s) : Harmless s' := by
  refine ⟨?_, fun d hd hpart => h.noSubset d hd (hpart.trans hs),
    fun ref href => h.references ref (href.trans hs)⟩
  exact List.IsChain.infix h.lines hs

theorem normalize_suffix {s u : CStr} (h : u <:+ normalize s) : ∃ v, v <:+ s ∧ normalize v = u := by
  fun_induction normalize s with
  | case1 s ih =>
    rcases List.suffix_cons_iff.mp h with rfl | hsuffix
    · exact ⟨'\r' :: '\n' :: s, List.suffix_refl _, by rw [normalize]⟩
    · obtain ⟨v, hv, heq⟩ := ih hsuffix
      exact ⟨v, hv.trans ⟨['\r', '\n'], rfl⟩, heq⟩
  | case2 s hs ih =>
    rcases List.suffix_cons_iff.mp h with rfl | hsuffix
    · exact ⟨'\r' :: s, List.suffix_refl _, by rw [normalize]; exact hs⟩
    · obtain ⟨v, hv, heq⟩ := ih hsuffix
      exact ⟨v, hv.trans (List.suffix_cons '\r' s), heq⟩
  | case3 c s _ hc ih =>
    rcases List.suffix_cons_iff.mp h with rfl | hsuffix
    · exact ⟨c :: s, List.suffix_refl _, normalize_cons hc s⟩
    · obtain ⟨v, hv, heq⟩ := ih hsuffix
      exact ⟨v, hv.trans (List.suffix_cons c s), heq⟩
  | case4 => exact ⟨[], List.suffix_refl _, (List.suffix_nil.mp h).symm⟩

theorem normalize_eq_cons {s u : CStr} {c : Char} (hc : c ≠ '\n') (h : normalize s = c :: u) :
    ∃ v, s = c :: v ∧ normalize v = u := by
  fun_induction normalize s with
  | case1 s _ => exact absurd (List.cons.inj h).1.symm hc
  | case2 s _ _ => exact absurd (List.cons.inj h).1.symm hc
  | case3 d s _ _ _ =>
    obtain ⟨rfl, rfl⟩ := List.cons.inj h
    exact ⟨s, rfl, rfl⟩
  | case4 => cases h

theorem Harmless.normalized {s : CStr} (h : Harmless s) : References (normalize s) := by
  intro ref href
  obtain ⟨_, hv, hamp⟩ := normalize_suffix href
  obtain ⟨_, rfl, hhash⟩ := normalize_eq_cons (by decide) hamp
  obtain ⟨v, rfl, rfl⟩ := normalize_eq_cons (by decide) hhash
  exact h.references v hv.isInfix

/-! ### Texts -/

/-- What may be left of a buffer: less of it, and nothing that does harm. -/
structure LeftOf (s s' : CStr) : Prop where
  length_le : s'.length ≤ s.length
  harmless : Harmless s → Harmless s'

theorem LeftOf.of_part {s s' : CStr} (h : s' <:+: s) : LeftOf s s' :=
  ⟨h.length_le, fun hs => hs.part h⟩

theorem LeftOf.of_suffix {s s' : CStr} (h : s' <:+ s) : LeftOf s s' := .of_part h.isInfix

theorem LeftOf.trans {s s' s'' : CStr} (h : LeftOf s s') (h' : LeftOf s' s'') : LeftOf s s'' :=
  ⟨h'.length_le.trans h.length_le, fun hs => h'.harmless (h.harmless hs)⟩

theorem normalizeBehind_length {text rest rest' : CStr}
    (h : normalizeBehind text rest = .ok rest') : rest'.length ≤ rest.length := by
  rw [normalizeBehind] at h
  split at h
  · cases h
    exact le_rfl
  · split at h
    · cases h
      exact length_normalize_le rest
    · cases h

/-- A text and the character behind it: it is decoded, and what follows stays as it is. -/
theorem ezxmlDecode_harmless {text behind : CStr} {c : Char} (h : Harmless (text ++ c :: behind))
    (hc : c ≠ '\n') (t : Char) (rest : CStr) :
    ∃ txt, ezxmlDecode text t rest = .ok (txt, rest) := by
  obtain ⟨txt, htxt⟩ := decodeLoop_ok (h.part (List.prefix_append text _).isInfix).normalized t
    (2 * (normalize text).length + 1)
  refine ⟨txt, ?_⟩
  rw [ezxmlDecode, normalizeBehind, if_pos (h.lines.runsOn hc)]
  show (decodeLoop t _ _ >>= fun text => .ok (text, rest)) = _
  rw [htxt]
  rfl

/-- What becomes of a text. -/
theorem ezxmlDecode_run {s text behind : CStr} {c : Char} (hs : text ++ c :: behind <:+: s)
    (hc : c ≠ '\n') (t : Char) (rest : CStr) :
    (∃ txt rest', ezxmlDecode text t rest = .ok (txt, rest') ∧ rest'.length ≤ rest.length ∧
      (Harmless s → rest' = rest)) ∨
    ∃ halt, ezxmlDecode text t rest = .error halt ∧ ¬ Harmless s := by
  have hharmless (h : Harmless s) := ezxmlDecode_harmless (h.part hs) hc t rest
  cases hd : ezxmlDecode text t rest with
  | error halt =>
    refine .inr ⟨halt, rfl, fun h => ?_⟩
    obtain ⟨txt, htxt⟩ := hharmless h
    rw [hd] at htxt
    cases htxt
  | ok r =>
    obtain ⟨txt, rest'⟩ := r
    refine .inl ⟨txt, rest', rfl, ?_, fun h => ?_⟩
    · rw [ezxmlDecode] at hd
      cases hb : normalizeBehind text rest with
      | error e => rw [hb] at hd; cases hd
      | ok r =>
        rw [hb] at hd
        cases hl : decodeLoop t (2 * (normalize text).length + 1) (normalize text) with
        | error e => simp only [hl] at hd; cases hd
        | ok d =>
          simp only [hl] at hd
          cases hd
          exact normalizeBehind_length hb
    · obtain ⟨txt', htxt⟩ := hharmless h
      rw [hd] at htxt
      cases htxt
      rfl

/-- The same for a text of the open element. -/
theorem ezxmlCharContent_run {s text behind : CStr} {c : Char} (hs : text ++ c :: behind <:+: s)
    (hc : c ≠ '\n') (cur : Cursor) (t : Char) (rest : CStr) :
    (∃ cur' rest' ops, ezxmlCharContent cur text t rest = .ok (cur', rest') ∧
      cur.applyAll ops = some cur' ∧ rest'.length ≤ rest.length ∧ (Harmless s → rest' = rest)) ∨
    ∃ halt, ezxmlCharContent cur text t rest = .error halt ∧ ¬ Harmless s := by
  have hkeeps : ∃ cur' rest' ops, Except.ok (cur, rest) = (.ok (cur', rest') : Except Halt _) ∧
      cur.applyAll ops = some cur' ∧ rest'.length ≤ rest.length ∧ (Harmless s → rest' = rest) :=
    ⟨cur, rest, [], rfl, rfl, le_rfl, fun _ => rfl⟩
  rw [ezxmlCharContent.eq_def]
  split
  · rename_i frame parents
    split
    · exact .inl hkeeps
    · rcases ezxmlDecode_run hs hc t rest with ⟨txt, rest', hd, hlen, hrest⟩ | ⟨halt, hd, hharm⟩
      · rw [hd]
        exact .inl ⟨_, rest', [.text txt], rfl, rfl, hlen, hrest⟩
      · rw [hd]
        exact .inr ⟨halt, rfl, hharm⟩
  · exact .inl hkeeps

/-! ### One turn -/

/-- What a turn may do. -/
inductive TurnRun (cur : Cursor) (s : CStr) : Except Halt Turn → Prop
  | halt {halt : Halt} (h : ¬ Harmless s) : TurnRun cur s (.error halt)
  | error {ops : List TreeOp} {root : Root} (hops : cur.applyAll ops = some root.cur)
      (herr : root.err ≠ []) : TurnRun cur s (.ok (.stop root))
  | finish {ops : List TreeOp} {cur' : Cursor} (hops : cur.applyAll ops = some cur') :
      TurnRun cur s (.ok (.stop (finish cur')))
  | next {ops : List TreeOp} {cur' : Cursor} {s' : CStr} (hops : cur.applyAll ops = some cur')
      (hleft : LeftOf s s') (hlt : s'.length < s.length) : TurnRun cur s (.ok (.next cur' s'))

theorem TurnRun.left {cur : Cursor} {s s' : CStr} {r : Except Halt Turn} (hs : LeftOf s s')
    (h : TurnRun cur s' r) : TurnRun cur s r := by
  cases h with
  | halt h => exact .halt fun hharm => h (hs.harmless hharm)
  | error hops herr => exact .error hops herr
  | finish hops => exact .finish hops
  | next hops hleft hlt => exact .next hops (hs.trans hleft) (hlt.trans_le hs.length_le)

theorem TurnRun.after {cur cur' : Cursor} {ops : List TreeOp} {s : CStr} {r : Except Halt Turn}
    (hops : cur.applyAll ops = some cur') (h : TurnRun cur' s r) : TurnRun cur s r := by
  have happend {ops' : List TreeOp} {c : Cursor} (h' : cur'.applyAll ops' = some c) :
      cur.applyAll (ops ++ ops') = some c := by
    rw [Cursor.applyAll_append, hops, Option.bind_some, h']
  cases h with
  | halt h => exact .halt h
  | error hops' herr => exact .error (happend hops') herr
  | finish hops' => exact .finish (happend hops')
  | next hops' hleft hlt => exact .next (happend hops') hleft hlt

theorem afterMarkup_run (cur : Cursor) (s : CStr) : TurnRun cur s (afterMarkup cur s) := by
  rcases s with _ | ⟨m, s⟩
  · exact .finish cur.applyAll_nil
  rw [afterMarkup.eq_def]
  simp only [List.tail_cons]
  split
  · exact .finish cur.applyAll_nil
  · exact .next cur.applyAll_nil (.of_suffix ⟨[m, '<'], rfl⟩) (by simp)
  · split
    · exact .finish cur.applyAll_nil
    · rename_i c rest hrest
      obtain ⟨hs, hc⟩ := eq_of_dropWhile hrest
      simp only [ne_eq, decide_not, Bool.not_eq_eq_eq_not, Bool.not_false, decide_eq_true_eq] at hc
      subst hc
      have hsuffix : s.takeWhile (· ≠ '<') ++ '<' :: rest <:+ m :: s := by
        rw [← hs]
        exact List.suffix_cons m s
      have hrest : rest <:+: m :: s :=
        ((List.suffix_append_of_suffix (List.suffix_cons '<' rest)).trans hsuffix).isInfix
      rcases ezxmlCharContent_run hsuffix.isInfix (by decide) cur '&' rest with
        ⟨cur', rest', ops, ht, hops, hlen, hkeep⟩ | ⟨halt, ht, hharm⟩
      · rw [ht]
        have hlt : rest'.length < (m :: s).length := by
          have hle := hsuffix.length_le
          simp only [List.length_append, List.length_cons] at hle ⊢
          omega
        exact .next hops ⟨hlt.le, fun hharm => hkeep hharm ▸ hharm.part hrest⟩ hlt
      · rw [ht]
        exact .halt hharm

theorem ezxmlErr_run (cur : Cursor) (s : CStr) {err : String} (herr : err.toList ≠ []) :
    TurnRun cur s (ezxmlErr cur err) := .error cur.applyAll_nil herr

/-- An attribute behind its name. -/
theorem attrValue_run (s : CStr) :
    (∃ value rest, attrValue s = .ok (.inl (value, rest)) ∧ LeftOf s rest) ∨
    (∃ q, attrValue s = .ok (.inr q)) ∨ ∃ halt, attrValue s = .error halt ∧ ¬ Harmless s := by
  rw [attrValue]
  split
  · have hsuffix := (List.dropWhile_suffix (fun c => isWs c ∨ c = '=') (l := s.tail)).trans
      (List.tail_suffix s)
    split
    · rename_i q v hv
      rw [hv] at hsuffix
      split
      · rename_i hq
        split
        · exact .inr (.inl ⟨q, rfl⟩)
        · rename_i c r hr
          obtain ⟨hs, hc⟩ := eq_of_dropWhile hr
          simp only [ne_eq, decide_not, Bool.not_eq_eq_eq_not, Bool.not_false,
            decide_eq_true_eq] at hc
          subst hc
          have hvalue : v.takeWhile (· ≠ c) ++ c :: r <:+: s := by
            rw [← hs]
            exact ((List.suffix_cons c v).trans hsuffix).isInfix
          have hr : r <:+: s :=
            (List.suffix_append_of_suffix (List.suffix_cons c r)).isInfix.trans hvalue
          rcases ezxmlDecode_run hvalue (by rcases hq with rfl | rfl <;> decide) ' ' r with
            ⟨value, rest', hd, hlen, hkeep⟩ | ⟨halt, hd, hharm⟩
          · rw [hd]
            exact .inl ⟨value, rest', rfl, hlen.trans hr.length_le,
              fun hharm => hkeep hharm ▸ hharm.part hr⟩
          · rw [hd]
            exact .inr (.inr ⟨halt, rfl, hharm⟩)
      · exact .inl ⟨[], q :: v, rfl, .of_suffix hsuffix⟩
    · exact .inl ⟨[], [], rfl, .of_suffix List.nil_suffix⟩
  · exact .inl ⟨[], s, rfl, .of_suffix (List.suffix_refl s)⟩

/-- The attributes of a tag. -/
theorem attrLoop_run (fuel : ℕ) (s : CStr) :
    (∃ attr rest, attrLoop fuel s = .ok (.inl (attr, rest)) ∧ LeftOf s rest) ∨
    (∃ q, attrLoop fuel s = .ok (.inr q)) ∨ ∃ halt, attrLoop fuel s = .error halt ∧ ¬ Harmless s := by
  induction fuel generalizing s with
  | zero => exact .inl ⟨[], s, rfl, .of_suffix (List.suffix_refl s)⟩
  | succ fuel ih =>
    rw [attrLoop]
    split
    · exact .inl ⟨[], s, rfl, .of_suffix (List.suffix_refl s)⟩
    · have hname : LeftOf s (s.dropWhile (!endsAttr ·)) := .of_suffix (List.dropWhile_suffix _)
      rcases attrValue_run (s.dropWhile (!endsAttr ·)) with
        ⟨value, rest, hv, hleft⟩ | ⟨q, hv⟩ | ⟨halt, hv, hharm⟩
      · have hnext : LeftOf s (rest.dropWhile isSpace) :=
          hname.trans (hleft.trans (.of_suffix (List.dropWhile_suffix isSpace)))
        rcases ih (rest.dropWhile isSpace) with
          ⟨attr, rest', hl, hleft'⟩ | ⟨q, hl⟩ | ⟨halt, hl, hharm⟩
        · simp only [hv, hl, bind, Except.bind]
          exact .inl ⟨_, rest', rfl, hnext.trans hleft'⟩
        · simp only [hv, hl, bind, Except.bind]
          exact .inr (.inl ⟨q, rfl⟩)
        · simp only [hv, hl, bind, Except.bind]
          exact .inr (.inr ⟨halt, rfl, fun h => hharm (hnext.harmless h)⟩)
      · simp only [hv, bind, Except.bind]
        exact .inr (.inl ⟨q, rfl⟩)
      · simp only [hv, bind, Except.bind]
        exact .inr (.inr ⟨halt, rfl, fun h => hharm (hname.harmless h)⟩)

theorem ezxmlCloseTag_opened {cur : Cursor} (hcur : ∀ root, cur ≠ .closed root) (name : CStr)
    (attr : List (CStr × CStr)) (selfClosing : Bool) :
    ∃ c, ezxmlCloseTag (ezxmlOpenTag cur name attr selfClosing) name = some c := by
  cases cur with
  | fresh => exact ⟨_, if_neg (not_not.mpr rfl)⟩
  | inside frame parents => exact ⟨_, if_neg (not_not.mpr rfl)⟩
  | closed root => exact absurd rfl (hcur root)

theorem tagEnd_run {e : Char} {cur : Cursor} (hcur : ∀ root, cur ≠ .closed root) (name : CStr)
    (attr : List (CStr × CStr)) (s : CStr) : TurnRun cur s (tagEnd e cur name attr s) := by
  rw [tagEnd.eq_def]
  split
  · rename_i s
    split
    · exact ezxmlErr_run cur _ (by decide)
    · obtain ⟨c, hc⟩ := ezxmlCloseTag_opened hcur name attr true
      have hops : cur.applyAll [.opened name attr true, .closed name] = some c := by
        rw [Cursor.applyAll_cons, Cursor.apply, Option.bind_some, Cursor.applyAll_cons,
          Cursor.apply, hc]
        rfl
      rw [emptyElement, hc]
      exact ((afterMarkup_run c s).after hops).left (.of_suffix (List.suffix_cons '/' s))
  · split
    · have hops : cur.applyAll [.opened name attr false]
          = some (ezxmlOpenTag cur name attr false) := rfl
      exact (afterMarkup_run _ _).after hops
    · exact ezxmlErr_run cur _ (by decide)

theorem tagAttrs_run {e : Char} {cur : Cursor} (hcur : ∀ root, cur ≠ .closed root)
    (name s : CStr) : TurnRun cur s (tagAttrs e cur name s) := by
  rw [tagAttrs]
  rcases attrLoop_run (s.length + 1) s with ⟨attr, r, hl, hleft⟩ | ⟨q, hl⟩ | ⟨halt, hl, hharm⟩
  · rw [hl]
    exact (tagEnd_run hcur name attr r).left hleft
  · rw [hl]
    refine .error cur.applyAll_nil ?_
    show "missing ".toList ++ [q] ≠ []
    simp
  · rw [hl]
    exact .halt hharm

theorem newTag_run (e : Char) (cur : Cursor) (s : CStr) : TurnRun cur s (newTag e cur s) := by
  rw [newTag.eq_def]
  split
  · exact ezxmlErr_run _ _ (by decide)
  · rename_i hcur
    exact (tagAttrs_run hcur _ _).left <| .of_suffix <|
      (List.dropWhile_suffix isSpace).trans (List.dropWhile_suffix (!endsName ·))

theorem closingEnd_run (e : Char) (cur : Cursor) (name s : CStr) :
    TurnRun cur s (closingEnd e cur name s) := by
  rw [closingEnd]
  split
  · exact ezxmlErr_run _ _ (by decide)
  · split
    · refine .error cur.applyAll_nil ?_
      simp
    · rename_i cur' hclose
      have hops : cur.applyAll [.closed name] = some cur' := by
        rw [Cursor.applyAll_cons, Cursor.apply, hclose]
        rfl
      refine ((afterMarkup_run cur' _).after hops).left (.of_suffix ?_)
      split
      · exact List.dropWhile_suffix isWs
      · exact List.suffix_refl s

theorem closingTag_run (e : Char) (cur : Cursor) (s : CStr) :
    TurnRun cur s (closingTag e cur s) :=
  (closingEnd_run e cur _ _).left (.of_suffix (List.dropWhile_suffix (!endsClosing ·)))

theorem cutAt_eq {word s a b : CStr} (h : cutAt word s = some (a, b)) : s = a ++ (word ++ b) := by
  induction s generalizing a with
  | nil =>
    rw [cutAt] at h
    split at h
    · rename_i hw
      cases h
      simp [hw]
    · cases h
  | cons c s ih =>
    rw [cutAt] at h
    split at h
    · rename_i hprefix
      cases h
      obtain ⟨t, ht⟩ := hprefix
      rw [← ht, List.drop_left, List.nil_append]
    · obtain ⟨⟨a', b'⟩, hcut, heq⟩ := Option.map_eq_some_iff.mp h
      cases heq
      rw [ih hcut, List.cons_append]

theorem comment_run (e : Char) (cur : Cursor) (s : CStr) : TurnRun cur s (comment e cur s) := by
  rw [comment.eq_def]
  split
  · exact ezxmlErr_run _ _ (by decide)
  · rename_i text rest hcut
    split
    · exact ezxmlErr_run _ _ (by decide)
    · refine (afterMarkup_run cur rest).left (.of_suffix ?_)
      rw [cutAt_eq hcut, ← List.append_assoc]
      exact List.suffix_append _ _

theorem cdata_run (cur : Cursor) (s : CStr) : TurnRun cur s (cdata cur s) := by
  rw [cdata.eq_def]
  split
  · exact ezxmlErr_run _ _ (by decide)
  · rename_i text rest hcut
    have hs := cutAt_eq hcut
    have hsplit : text ++ ']' :: (']' :: '>' :: rest) <:+: s := by rw [hs]; exact List.infix_rfl
    have hrest : '>' :: rest <:+: s :=
      List.IsSuffix.isInfix ⟨text ++ [']', ']'], by rw [hs]; simp⟩
    rcases ezxmlCharContent_run hsplit (by decide) cur 'c' rest with
      ⟨cur', rest', ops, ht, hops, hlen, hkeep⟩ | ⟨halt, ht, hharm⟩
    · rw [ht]
      refine ((afterMarkup_run cur' ('>' :: rest')).after hops).left ⟨?_, fun hharm => ?_⟩
      · have hle := hrest.length_le
        simp only [List.length_cons] at hle ⊢
        omega
      · exact hkeep hharm ▸ hharm.part hrest
    · rw [ht]
      exact .halt hharm

theorem doctypeEnd_suffix (fuel : ℕ) (l : Bool) (s : CStr) : (doctypeEnd fuel l s).2 <:+ s := by
  induction fuel generalizing l s with
  | zero => exact List.suffix_refl s
  | succ fuel ih =>
    rw [doctypeEnd]
    split
    · exact (ih _ _).trans ((List.dropWhile_suffix _).trans (List.tail_suffix s))
    · exact List.suffix_refl s

/-- The bracket of an internal subset stands in front of the first `>`. -/
theorem doctypeEnd_subset {fuel : ℕ} {s rest : CStr} (h : doctypeEnd fuel false s = (true, rest)) :
    ∃ d s', s = d ++ '[' :: s' ∧ '>' ∉ d := by
  induction fuel generalizing s with
  | zero => cases h
  | succ fuel ih =>
    rw [doctypeEnd] at h
    split at h
    · rename_i hon
      obtain ⟨c, s, rfl⟩ := List.exists_cons_of_ne_nil hon.1
      have hc : '>' ≠ c := by
        rintro rfl
        simp at hon
      rw [List.tail_cons] at h
      -- what is skipped
      have hskip : '>' ∉ s.takeWhile fun c => decide (¬ (c = '[' ∨ c = ']' ∨ c = '>')) :=
        fun hmem => absurd (List.mem_takeWhile_imp hmem) (by decide)
      have hs := List.takeWhile_append_dropWhile (l := s)
        (p := fun c => decide (¬ (c = '[' ∨ c = ']' ∨ c = '>')))
      generalize (s.takeWhile fun c => decide (¬ (c = '[' ∨ c = ']' ∨ c = '>'))) = skipped
        at hskip hs
      generalize (s.dropWhile fun c => decide (¬ (c = '[' ∨ c = ']' ∨ c = '>'))) = next at h hs
      subst hs
      by_cases hopen : next.head? = some '['
      · obtain ⟨s', rfl⟩ : ∃ s', next = '[' :: s' := by
          rcases next with _ | ⟨d, s'⟩
          · cases hopen
          · cases hopen
            exact ⟨s', rfl⟩
        exact ⟨c :: skipped, s', rfl, by simp [hc, hskip]⟩
      · simp only [hopen, decide_false, Bool.or_false] at h
        obtain ⟨d, s', rfl, hd⟩ := ih h
        exact ⟨c :: skipped ++ d, s', by simp, by simp [hc, hskip, hd]⟩
    · cases h

theorem doctype_run (e : Char) (cur : Cursor) {s : CStr}
    (hs : ['!', 'D', 'O', 'C', 'T', 'Y', 'P', 'E'] <+: s) : TurnRun cur s (doctype e cur s) := by
  have hsuffix := doctypeEnd_suffix (s.length + 1) false s
  rw [doctype]
  cases hend : doctypeEnd (s.length + 1) false s with
  | mk l rest =>
    rw [hend] at hsuffix
    simp only
    split
    · exact ezxmlErr_run _ _ (by decide)
    · split
      · rename_i hl
        subst hl
        obtain ⟨d, s', rfl, hd⟩ := doctypeEnd_subset hend
        have hbracket : d ++ ['['] <+: d ++ '[' :: s' := ⟨s', by simp⟩
        refine .halt fun hharm => ?_
        rcases List.prefix_or_prefix_of_prefix hs hbracket with hword | hword
        · rcases List.prefix_concat_iff.mp hword with heq | ⟨d', rfl⟩
          · have hmem : '[' ∈ d ++ ['['] := by simp
            rw [← heq] at hmem
            revert hmem
            decide
          · rw [List.mem_append, not_or] at hd
            exact hharm.noSubset d' hd.2 hbracket.isInfix
        · have hmem := hword.subset (List.mem_append_right d (List.mem_singleton_self '['))
          revert hmem
          decide
      · exact (afterMarkup_run cur rest).left (.of_suffix hsuffix)

theorem instEnd_suffix {quest : Bool} {s rest : CStr} (h : instEnd quest s = some rest) :
    rest <:+ s := by
  induction s generalizing quest with
  | nil =>
    rw [instEnd] at h
    split at h
    · cases h
      exact List.suffix_refl []
    · cases h
  | cons c s ih =>
    rw [instEnd] at h
    split at h
    · cases h
      exact List.suffix_refl _
    · exact (ih h).trans (List.suffix_cons c s)

theorem ezxmlProcInst_left {s rest : CStr} (h : rest <:+ s) : LeftOf s (ezxmlProcInst s rest) := by
  rw [ezxmlProcInst]
  split
  · exact .of_part (List.takeWhile_prefix _).isInfix
  · exact .of_suffix h

theorem procInst_run (e : Char) (cur : Cursor) (s : CStr) : TurnRun cur s (procInst e cur s) := by
  rw [procInst.eq_def]
  split
  · exact ezxmlErr_run _ _ (by decide)
  · rename_i rest hend
    split
    · exact ezxmlErr_run _ _ (by decide)
    · exact (afterMarkup_run cur _).left (ezxmlProcInst_left (instEnd_suffix hend))

/-- **What a turn may do.** -/
theorem turn_run (e : Char) (cur : Cursor) (s : CStr) : TurnRun cur s (turn e cur s) := by
  rw [turn]
  split
  · exact newTag_run e cur s
  · split
    · exact (closingTag_run e cur s.tail).left (.of_suffix (List.tail_suffix s))
    · split
      · exact (comment_run e cur _).left (.of_suffix (List.drop_suffix 3 s))
      · split
        · exact (cdata_run cur _).left (.of_suffix (List.drop_suffix 8 s))
        · split
          · rename_i hword
            exact doctype_run e cur hword
          · split
            · exact (procInst_run e cur s.tail).left (.of_suffix (List.tail_suffix s))
            · exact ezxmlErr_run cur s (by decide)

/-! ### Whole files -/

/-- What the parser has done when it returns. -/
structure Returns (cur : Cursor) (root : Root) : Prop where
  built : ∃ ops, cur.applyAll ops = some root.cur
  closed : root.err = [] → ∃ t, root.cur = .closed t

theorem finish_returns {cur cur' : Cursor} {ops : List TreeOp}
    (hops : cur.applyAll ops = some cur') : Returns cur (finish cur') := by
  cases cur' with
  | closed t => exact ⟨⟨ops, hops⟩, fun _ => ⟨t, rfl⟩⟩
  | fresh => exact ⟨⟨ops, hops⟩, fun herr => absurd herr (by decide)⟩
  | inside frame parents => exact ⟨⟨ops, hops⟩, fun herr => absurd herr (by simp [finish])⟩

theorem Returns.after {cur cur' : Cursor} {ops : List TreeOp} {root : Root}
    (hops : cur.applyAll ops = some cur') (h : Returns cur' root) : Returns cur root := by
  obtain ⟨ops', hops'⟩ := h.built
  exact ⟨⟨ops ++ ops', by rw [Cursor.applyAll_append, hops, Option.bind_some, hops']⟩, h.closed⟩

/-- The parser comes to an end: it builds a tree by operations on it, and a root without an
error is closed. -/
theorem parseLoop_run {e : Char} {fuel : ℕ} {cur : Cursor} {s : CStr} (hfuel : s.length < fuel) :
    (∃ root, parseLoop e fuel cur s = .ok root ∧ Returns cur root) ∨
      ∃ halt, parseLoop e fuel cur s = .error halt ∧ ¬ Harmless s := by
  induction fuel generalizing cur s with
  | zero => omega
  | succ fuel ih =>
    have hturn := turn_run e cur s
    rw [parseLoop]
    generalize turn e cur s = r at hturn ⊢
    cases hturn with
    | halt h => exact .inr ⟨_, rfl, h⟩
    | @error ops root hops herr =>
      exact .inl ⟨root, rfl, ⟨ops, hops⟩, fun hnone => absurd hnone herr⟩
    | finish hops => exact .inl ⟨_, rfl, finish_returns hops⟩
    | @next ops cur' s' hops hleft hlt =>
      rcases @ih cur' s' (by omega) with ⟨root, hroot, hret⟩ | ⟨halt, hhalt, hb⟩
      · exact .inl ⟨root, hroot, hret.after hops⟩
      · exact .inr ⟨halt, hhalt, fun hharm => hb (hleft.harmless hharm)⟩

/-- A larger amount of fuel changes nothing. -/
theorem parseLoop_fuel {e : Char} {fuel fuel' : ℕ} {cur : Cursor} {s : CStr}
    (hfuel : s.length < fuel) (hfuel' : s.length < fuel') :
    parseLoop e fuel cur s = parseLoop e fuel' cur s := by
  induction fuel generalizing fuel' cur s with
  | zero => omega
  | succ fuel ih =>
    obtain ⟨fuel', rfl⟩ : ∃ f, fuel' = f + 1 := ⟨fuel' - 1, by omega⟩
    have hturn := turn_run e cur s
    rw [parseLoop, parseLoop]
    generalize turn e cur s = r at hturn ⊢
    cases hturn with
    | halt h => rfl
    | error hops herr => rfl
    | finish hops => rfl
    | next hops hleft hlt => exact ih (by omega) (by omega)

theorem parseText_run (e : Char) (s : CStr) :
    (∃ root, parseText e s = .ok root ∧ Returns .fresh root) ∨
      ∃ halt, parseText e s = .error halt ∧ ¬ Harmless s := by
  rw [parseText.eq_def]
  split
  · exact .inl ⟨_, rfl, ⟨[], rfl⟩, fun herr => absurd herr (by decide)⟩
  · rename_i c rest hrest
    have hsuffix : rest <:+ s :=
      (List.suffix_cons c rest).trans (hrest ▸ List.dropWhile_suffix (· ≠ '<'))
    rcases @parseLoop_run e _ .fresh _ (Nat.lt_succ_self rest.length) with
      hret | ⟨halt, hhalt, hharm⟩
    · exact .inl hret
    · exact .inr ⟨halt, hhalt, fun h => hharm (h.part hsuffix.isInfix)⟩

/-- **A harmless file is parsed inside its buffer**, well formed or not, and a tree without an
error has a root that is closed; a file in UTF-16 has to hold more than its mark. -/
theorem ezxmlParseStr_inside {bytes : List UInt8} (hmark : bytes ≠ [] → buffer bytes ≠ [])
    (hharm : Harmless (buffer bytes)) :
    ∃ root, ezxmlParseStr bytes = .ok root ∧ (root.err = [] → ∃ t, root.cur = .closed t) := by
  rw [ezxmlParseStr.eq_def]
  split
  · exact ⟨_, rfl, fun herr => absurd herr (by decide)⟩
  · rename_i hne
    split
    · rename_i hlast
      exact absurd (List.getLast?_eq_none_iff.mp hlast) (hmark hne)
    · rename_i e hlast
      have hpart : (buffer bytes).dropLast.takeWhile (· ≠ Char.ofNat 0) <:+: buffer bytes :=
        ((List.takeWhile_prefix _).trans (List.dropLast_prefix (buffer bytes))).isInfix
      rcases parseText_run e ((buffer bytes).dropLast.takeWhile (· ≠ Char.ofNat 0)) with
        ⟨root, hroot, hret⟩ | ⟨halt, hhalt, hbad⟩
      · exact ⟨root, hroot, hret.closed⟩
      · exact absurd (hharm.part hpart) hbad

/-- `<!DOCTYPE a>`, `<a>&lt;` and `</a>` on three lines, with `\r\n`. -/
theorem ezxmlParseStr_inside_lines :
    ∃ root, ezxmlParseStr [0x3c, 0x21, 0x44, 0x4f, 0x43, 0x54, 0x59, 0x50, 0x45, 0x20, 0x61, 0x3e,
      0x0d, 0x0a, 0x3c, 0x61, 0x3e, 0x26, 0x6c, 0x74, 0x3b, 0x0d, 0x0a, 0x3c, 0x2f, 0x61, 0x3e,
      0x0d, 0x0a] = .ok root ∧ (root.err = [] → ∃ t, root.cur = .closed t) := by
  refine ezxmlParseStr_inside (fun _ => by decide)
    ⟨by decide, fun d _ hsubset => ?_, fun ref href _ _ _ => ?_⟩
  · exact absurd (hsubset.subset (List.mem_append_right _ (List.mem_singleton_self '[')))
      (by decide)
  · exact absurd (href.subset (List.mem_cons_of_mem '&' (List.mem_cons_self ..))) (by decide)

-- the text `\r` in front of `<b>` is normalized beyond its end, up to the `\r` at the end of the
-- buffer, and on behind it
example : ezxmlParseStr [0x3c, 0x61, 0x3e, 0x0d, 0x3c, 0x62, 0x3e, 0x0d, 0x0a] = .error .behind :=
  rfl

end Ezxml

end Fuji
