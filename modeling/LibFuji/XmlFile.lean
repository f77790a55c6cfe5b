/-
The elements of a profile file together.

`fileWrites` runs through the elements of a group with the IOP code in force and
collects what they store; the loop of the reader carries out just these assignments
(`propLoop_follows`).  With pairwise distinct names the code in force is 0 or the code
of the file, and what an element stores under 0 it stores under both, so

* `fileWrites_eq_some` — the elements of an accepted group all store under the code of
  the file;
* `fileWrites_of_stores` — if all of them store under code 0, their order is free.
-/
import LibFuji.XmlRules

namespace Fuji

open Assignments

namespace Xml

/-! ### The elements of a group -/

/-- What an element of a group stores under an IOP code; `none` when it is refused. -/
def stores (iop : UInt32) (e : Element) : Option (List (FpField × UInt32)) :=
  if e.name = "RejectedValue" then some [] else (ruleOf e.name).eval iop (valueOf e)

/-- The assignments of an element, none for a refused one. -/
def storedBy (iop : UInt32) (e : Element) : List (FpField × UInt32) := (stores iop e).getD []

/-- The assignments the loop of the reader carries out, or `none` when it stops at an
element.  The code in force is the one stored last. -/
def fileWrites : UInt32 → List Element → Option (List (FpField × UInt32))
  | _, [] => some []
  | iop, e :: es => do
    let ws ← stores iop e
    let rest ← fileWrites ((last ws .iopCode).getD iop) es
    some (ws ++ rest)

theorem fileWrites_cons_eq_some {iop : UInt32} {e : Element} {es : List Element}
    {ws : List (FpField × UInt32)} : fileWrites iop (e :: es) = some ws ↔
      ∃ w rest, stores iop e = some w ∧
        fileWrites ((last w .iopCode).getD iop) es = some rest ∧ ws = w ++ rest := by
  rw [fileWrites]
  constructor
  · intro h
    obtain ⟨w, hw, h⟩ := Option.bind_eq_some_iff.mp h
    obtain ⟨rest, hrest, h⟩ := Option.bind_eq_some_iff.mp h
    exact ⟨w, rest, hw, hrest, (Option.some.inj h).symm⟩
  · rintro ⟨w, rest, hw, hrest, rfl⟩
    rw [hw, Option.bind_eq_bind, Option.bind_some, hrest]
    rfl

/-- **The loop carries out `fileWrites`.** -/
theorem propLoop_follows (es : List Element) (fp : FujiProfile) :
    Follows (propLoop es fp) fp (fileWrites (fp.word .iopCode) es) := by
  induction es generalizing fp with
  | nil => rfl
  | cons e es ih =>
    rw [propLoop, fileWrites, stores]
    by_cases hr : e.name = "RejectedValue"
    -- passed over, whatever it holds
    · rw [if_pos hr, if_pos hr]
      have h := ih fp
      rcases hw : fileWrites (fp.word .iopCode) es with _ | ws
      · simpa [hw] using h
      · simpa [hw] using h
    · rw [if_neg hr, if_neg hr]
      have h := parseProp_follows fp e.name (valueOf e)
      rcases he : (ruleOf e.name).eval (fp.word .iopCode) (valueOf e) with _ | ws
      -- the element is refused and the loop stops
      · rw [he] at h
        have hrc : (parseProp fp e.name (valueOf e)).1 = -1 := h
        rw [if_pos (by rw [hrc]; decide)]
        exact hrc
      · rw [he] at h
        have hpp : parseProp fp e.name (valueOf e) = (0, fp.assign ws) := h
        rw [hpp, if_neg (by simp)]
        -- what it stores decides the code in force for the rest
        have h' := ih (fp.assign ws)
        rw [FujiProfile.assign_word] at h'
        simp only [Option.bind_eq_bind, Option.bind_some]
        rcases hw : fileWrites ((last ws .iopCode).getD (fp.word .iopCode)) es with _ | rest
        · rw [hw] at h'
          exact h'
        · rw [hw] at h'
          simp only [Option.bind_some]
          rw [Follows, FujiProfile.assign_append]
          exact h'

theorem stores_cases {iop : UInt32} {e : Element} {ws : List (FpField × UInt32)}
    (h : stores iop e = some ws) :
    ws = [] ∨ ∃ f v, ws = [(f, v)] ∧ e.name ∈ writers f ∧ Stores iop v f := by
  rw [stores] at h
  split at h
  · exact .inl (Option.some.inj h).symm
  · exact (ruleOf_lawful e.name).stores h

theorem stores_mono {e : Element} {ws : List (FpField × UInt32)} (h : stores 0 e = some ws)
    (iop : UInt32) : stores iop e = some ws := by
  rw [stores] at h ⊢
  split at h
  · rw [if_pos ‹_›]; exact h
  · rw [if_neg ‹_›]; exact (ruleOf_lawful e.name).mono h iop

theorem mem_storedBy {iop : UInt32} {e : Element} {f : FpField} {v : UInt32}
    (h : (f, v) ∈ storedBy iop e) :
    stores iop e = some [(f, v)] ∧ e.name ∈ writers f ∧ Stores iop v f := by
  rw [storedBy] at h
  rcases hs : stores iop e with _ | ws
  · simp [hs] at h
  · rw [hs, Option.getD_some] at h
    rcases stores_cases hs with rfl | ⟨g, w, rfl, hkey, hval⟩
    · simp at h
    · obtain ⟨rfl, rfl⟩ := Prod.mk.inj (List.mem_singleton.mp h)
      exact ⟨rfl, hkey, hval⟩

/-- The element that carries the IOP code is read the same way under every code. -/
theorem stores_code {e : Element} (h : e.name = "IOPCode") (iop iop' : UInt32) :
    stores iop e = stores iop' e := by
  have hrule : ruleOf e.name = PropRule.code := by rw [h]; rfl
  simp only [stores, hrule]
  cases valueOf e <;> rfl

theorem last_stores_code {iop : UInt32} {e : Element} {ws : List (FpField × UInt32)}
    (he : e.name ≠ "IOPCode") (h : stores iop e = some ws) : last ws .iopCode = none := by
  refine last_eq_none_iff.mpr fun v hv => he ?_
  have hmem : (FpField.iopCode, v) ∈ storedBy iop e := by rwa [storedBy, h]
  exact List.mem_singleton.mp (mem_storedBy hmem).2.1

/-- The assignments of all elements under one code. -/
def allWrites (iop : UInt32) (es : List Element) : List (FpField × UInt32) :=
  es.flatMap (storedBy iop)

theorem allWrites_cons (iop : UInt32) (e : Element) (es : List Element) :
    allWrites iop (e :: es) = storedBy iop e ++ allWrites iop es := List.flatMap_cons

theorem mem_allWrites {iop : UInt32} {es : List Element} {a : FpField × UInt32} :
    a ∈ allWrites iop es ↔ ∃ e ∈ es, a ∈ storedBy iop e := List.mem_flatMap

theorem allWrites_perm {iop : UInt32} {es es' : List Element} (h : es.Perm es') :
    (allWrites iop es).Perm (allWrites iop es') := h.flatMap_right _

/-- The IOP code a file gives, 0 if it gives none. -/
def fileCode (es : List Element) : UInt32 := (last (allWrites 0 es) .iopCode).getD 0

/-! ### Distinct names -/

/-- The members that elements of more than one name write. -/
def Shared (f : FpField) : Prop := f = .wbShiftR ∨ f = .wbShootCond

theorem writers_eq {f : FpField} (hf : ¬ Shared f) {a b : String} (ha : a ∈ writers f)
    (hb : b ∈ writers f) : a = b := by
  cases f <;> simp_all [writers, Shared]

section Distinct

variable {es : List Element}

theorem eq_of_name_eq (hnd : (es.map Element.name).Nodup) {e e' : Element} (he : e ∈ es)
    (he' : e' ∈ es) (h : e.name = e'.name) : e = e' :=
  List.inj_on_of_nodup_map hnd he he' h

/-- A member that elements of one name write gets one value. -/
theorem allWrites_functional (hnd : (es.map Element.name).Nodup) {iop : UInt32} {f : FpField}
    (hf : ¬ Shared f) {v v' : UInt32} (h : (f, v) ∈ allWrites iop es)
    (h' : (f, v') ∈ allWrites iop es) : v = v' := by
  obtain ⟨e, he, hv⟩ := mem_allWrites.mp h
  obtain ⟨e', he', hv'⟩ := mem_allWrites.mp h'
  obtain ⟨hs, hw, -⟩ := mem_storedBy hv
  obtain ⟨hs', hw', -⟩ := mem_storedBy hv'
  obtain rfl := eq_of_name_eq hnd he he' (writers_eq hf hw hw')
  have := Option.some.inj (hs.symm.trans hs')
  simpa using this

/-- The code of a file can be read off under any code. -/
theorem fileCode_eq (hnd : (es.map Element.name).Nodup) (iop : UInt32) :
    (last (allWrites iop es) .iopCode).getD 0 = fileCode es := by
  have hstored : ∀ {c c' : UInt32} {v : UInt32}, (FpField.iopCode, v) ∈ allWrites c es →
      (FpField.iopCode, v) ∈ allWrites c' es := by
    intro c c' v h
    obtain ⟨e, he, hv⟩ := mem_allWrites.mp h
    have hname := List.mem_singleton.mp (mem_storedBy hv).2.1
    refine mem_allWrites.mpr ⟨e, he, ?_⟩
    rwa [storedBy, stores_code hname c' c]
  have hlast : last (allWrites iop es) .iopCode = last (allWrites 0 es) .iopCode :=
    last_congr (fun v => ⟨hstored, hstored⟩) fun v v' =>
      allWrites_functional hnd (by simp [Shared])
  rw [fileCode, hlast]

theorem fileCode_perm (hnd : (es.map Element.name).Nodup) {es' : List Element}
    (h : es.Perm es') : fileCode es = fileCode es' := by
  rw [fileCode, fileCode, last_perm (allWrites_perm h)]
  exact fun v v' => allWrites_functional hnd (by simp [Shared])

theorem last_allWrites_code {iop : UInt32} (hno : ∀ e ∈ es, e.name ≠ "IOPCode") :
    last (allWrites iop es) .iopCode = none := by
  refine last_eq_none_iff.mpr fun v hv => ?_
  obtain ⟨e, he, hv⟩ := mem_allWrites.mp hv
  exact hno e he (List.mem_singleton.mp (mem_storedBy hv).2.1)

/-- Without an element for the IOP code, the code in force stays what it is. -/
theorem fileWrites_of_no_code {iop : UInt32} (hno : ∀ e ∈ es, e.name ≠ "IOPCode")
    {ws : List (FpField × UInt32)} : fileWrites iop es = some ws ↔
      (∀ e ∈ es, (stores iop e).isSome) ∧ ws = allWrites iop es := by
  induction es generalizing ws with
  | nil =>
    constructor
    · intro h
      exact ⟨by simp, (Option.some.inj h).symm⟩
    · rintro ⟨-, rfl⟩
      rfl
  | cons e es ih =>
    have hes : ∀ e' ∈ es, e'.name ≠ "IOPCode" := fun e' he' =>
      hno e' (List.mem_cons_of_mem _ he')
    rw [fileWrites_cons_eq_some]
    constructor
    · rintro ⟨w, rest, hw, hrest, rfl⟩
      rw [last_stores_code (hno e (List.mem_cons_self ..)) hw, Option.getD_none, ih hes] at hrest
      obtain ⟨hall, rfl⟩ := hrest
      refine ⟨List.forall_mem_cons.mpr ⟨by rw [hw]; rfl, hall⟩, ?_⟩
      rw [allWrites_cons, storedBy, hw, Option.getD_some]
    · rintro ⟨hall, rfl⟩
      obtain ⟨he, hall⟩ := List.forall_mem_cons.mp hall
      obtain ⟨w, hw⟩ := Option.isSome_iff_exists.mp he
      refine ⟨w, allWrites iop es, hw, ?_, by rw [allWrites_cons, storedBy, hw, Option.getD_some]⟩
      rw [last_stores_code (hno e (List.mem_cons_self ..)) hw, Option.getD_none, ih hes]
      exact ⟨hall, rfl⟩

theorem fileCode_cons {e : Element} (h : ∀ e' ∈ es, e'.name ≠ "IOPCode") :
    fileCode (e :: es) = (last (storedBy 0 e) .iopCode).getD 0 := by
  rw [fileCode, allWrites_cons, last_append, last_allWrites_code h, Option.none_or]

theorem fileCode_cons_of_ne {e : Element} (h : e.name ≠ "IOPCode") :
    fileCode (e :: es) = fileCode es := by
  have hlast : last (storedBy 0 e) .iopCode = none := by
    rw [storedBy]
    rcases hs : stores 0 e with _ | w
    · rfl
    · exact last_stores_code h hs
  rw [fileCode, allWrites_cons, last_append, hlast, Option.or_none, fileCode]

/-- **An accepted group** stores, element by element, what it stores under the code of
the file. -/
theorem fileWrites_eq_some (hnd : (es.map Element.name).Nodup) {ws : List (FpField × UInt32)}
    (h : fileWrites 0 es = some ws) :
    (∀ e ∈ es, (stores (fileCode es) e).isSome) ∧ ws = allWrites (fileCode es) es := by
  induction es generalizing ws with
  | nil => exact ⟨by simp, (Option.some.inj h).symm⟩
  | cons e es ih =>
    obtain ⟨w, rest, hw, hrest, rfl⟩ := fileWrites_cons_eq_some.mp h
    rw [List.map_cons, List.nodup_cons] at hnd
    obtain ⟨hnotin, hnd⟩ := hnd
    have hstored : storedBy 0 e = w := by rw [storedBy, hw, Option.getD_some]
    by_cases he : e.name = "IOPCode"
    · -- from here on the code in force is the code of the file
      have hno : ∀ e' ∈ es, e'.name ≠ "IOPCode" := fun e' he' hname =>
        hnotin (he ▸ hname ▸ List.mem_map_of_mem he')
      rw [fileCode_cons hno, hstored, List.forall_mem_cons, allWrites_cons]
      obtain ⟨hall, rfl⟩ := (fileWrites_of_no_code hno).mp hrest
      have hw' := stores_code he ((last w .iopCode).getD 0) 0 |>.trans hw
      exact ⟨⟨by rw [hw']; rfl, hall⟩, by rw [storedBy, hw', Option.getD_some]⟩
    · -- in front of it the code in force is 0, which takes no more than any other
      rw [last_stores_code he hw, Option.getD_none] at hrest
      obtain ⟨hall, rfl⟩ := ih hnd hrest
      have hw' := stores_mono hw (fileCode es)
      rw [fileCode_cons_of_ne he, List.forall_mem_cons, allWrites_cons]
      exact ⟨⟨by rw [hw']; rfl, hall⟩, by rw [storedBy, hw', Option.getD_some]⟩

/-- **A group that stores under code 0** stores the same in any order. -/
theorem fileWrites_of_stores (hall : ∀ e ∈ es, (stores 0 e).isSome) (iop : UInt32) :
    fileWrites iop es = some (allWrites 0 es) := by
  induction es generalizing iop with
  | nil => rfl
  | cons e es ih =>
    obtain ⟨he, hall⟩ := List.forall_mem_cons.mp hall
    obtain ⟨w, hw⟩ := Option.isSome_iff_exists.mp he
    refine fileWrites_cons_eq_some.mpr ⟨w, _, stores_mono hw iop, ih hall _, ?_⟩
    rw [allWrites_cons, storedBy, hw, Option.getD_some]

end Distinct

end Xml

end Fuji
