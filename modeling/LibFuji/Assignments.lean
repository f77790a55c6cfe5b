/-
Sequences of assignments to a family of variables.

A list of pairs `(i, v)` stands for the assignments `i := v` carried out from
left to right on a state `ι → α`.  What the run leaves in a variable is decided
by the last assignment to it (`run_apply`), so two runs agree on a variable as
soon as they assign it the same values:

* `last_append`, `last_of_agree` — how the deciding value is found;
* `last_congr`, `last_perm` — order does not matter where all assignments agree;
* `get_foldl`, `get_foldl_filter` — the same for a variable that is one part of a greater state.
-/
import Mathlib

namespace Assignments

variable {ι α : Type*} [DecidableEq ι]

/-- Carry out the assignments in order. -/
def run (ws : List (ι × α)) (s : ι → α) : ι → α :=
  ws.foldl (fun s w => Function.update s w.1 w.2) s

/-- The value the last assignment to `i` gives it. -/
def last : List (ι × α) → ι → Option α
  | [], _ => none
  | w :: ws, i => (last ws i).or (if w.1 = i then some w.2 else none)

@[simp] theorem run_nil (s : ι → α) : run [] s = s := rfl

@[simp] theorem run_cons (w : ι × α) (ws : List (ι × α)) (s : ι → α) :
    run (w :: ws) s = run ws (Function.update s w.1 w.2) := rfl

@[simp] theorem run_append (ws vs : List (ι × α)) (s : ι → α) :
    run (ws ++ vs) s = run vs (run ws s) := List.foldl_append

@[simp] theorem last_nil (i : ι) : last ([] : List (ι × α)) i = none := rfl

theorem run_apply (ws : List (ι × α)) (s : ι → α) (i : ι) :
    run ws s i = (last ws i).getD (s i) := by
  induction ws generalizing s with
  | nil => rfl
  | cons w ws ih =>
    rw [run_cons, ih, last]
    by_cases hw : w.1 = i
    · cases h : last ws i <;> simp [← hw]
    · cases h : last ws i <;> simp [hw, Function.update_of_ne (Ne.symm hw)]

/-- Carrying out the assignments twice is carrying them out once. -/
theorem run_run (ws : List (ι × α)) (s : ι → α) : run ws (run ws s) = run ws s := by
  funext i
  rw [run_apply, run_apply]
  cases last ws i <;> rfl

theorem last_append (ws vs : List (ι × α)) (i : ι) :
    last (ws ++ vs) i = (last vs i).or (last ws i) := by
  induction ws with
  | nil => simp
  | cons w ws ih => rw [List.cons_append, last, ih, last, Option.or_assoc]

theorem last_mem {ws : List (ι × α)} {i : ι} {v : α} (h : last ws i = some v) :
    (i, v) ∈ ws := by
  induction ws with
  | nil => simp at h
  | cons w ws ih =>
    rw [last, Option.or_eq_some_iff] at h
    rcases h with h | ⟨-, h⟩
    · exact List.mem_cons_of_mem _ (ih h)
    · by_cases hw : w.1 = i
      · rw [if_pos hw, Option.some_inj] at h
        subst hw h
        exact List.mem_cons_self ..
      · simp [hw] at h

theorem last_eq_none_iff {ws : List (ι × α)} {i : ι} :
    last ws i = none ↔ ∀ v, (i, v) ∉ ws := by
  induction ws with
  | nil => simp
  | cons w ws ih =>
    rw [last, Option.or_eq_none_iff, ih]
    constructor
    · rintro ⟨hws, hw⟩ v hv
      rcases List.mem_cons.mp hv with rfl | hv
      · simp at hw
      · exact hws v hv
    · intro h
      refine ⟨fun v hv => h v (List.mem_cons_of_mem _ hv), if_neg ?_⟩
      rintro rfl
      exact h w.2 (List.mem_cons_self ..)

/-- Where all assignments to `i` agree, any of them is the deciding one. -/
theorem last_of_agree {ws : List (ι × α)} {i : ι} {v : α} (hv : (i, v) ∈ ws)
    (h : ∀ v', (i, v') ∈ ws → v' = v) : last ws i = some v := by
  rcases hl : last ws i with _ | v'
  · exact absurd hv (last_eq_none_iff.mp hl v)
  · rw [h v' (last_mem hl)]

/-- Two lists that assign `i` the same values, all equal, leave the same in it. -/
theorem last_congr {ws vs : List (ι × α)} {i : ι} (hmem : ∀ v, (i, v) ∈ ws ↔ (i, v) ∈ vs)
    (h : ∀ v v', (i, v) ∈ ws → (i, v') ∈ ws → v = v') : last ws i = last vs i := by
  rcases hl : last vs i with _ | v
  · exact last_eq_none_iff.mpr fun v hv => last_eq_none_iff.mp hl v ((hmem v).mp hv)
  · have hv : (i, v) ∈ ws := (hmem v).mpr (last_mem hl)
    exact last_of_agree hv fun v' hv' => h v' v hv' hv

theorem last_perm {ws vs : List (ι × α)} (hp : ws.Perm vs) {i : ι}
    (h : ∀ v v', (i, v) ∈ ws → (i, v') ∈ ws → v = v') : last ws i = last vs i :=
  last_congr (fun _ => hp.mem_iff) h

/-- A part of a state that the assignments to `i` write, and no other does. -/
theorem get_foldl {σ β : Type*} {step : σ → ι × α → σ} {get : σ → β} {put : α → β} {i : ι}
    {ws : List (ι × α)}
    (hstep : ∀ w ∈ ws, ∀ s, get (step s w) = if w.1 = i then put w.2 else get s) (s : σ) :
    get (ws.foldl step s) = ((last ws i).map put).getD (get s) := by
  induction ws generalizing s with
  | nil => rfl
  | cons w ws ih =>
    obtain ⟨hw, hws⟩ := List.forall_mem_cons.mp hstep
    rw [List.foldl_cons, ih hws, hw, last]
    by_cases hi : w.1 = i
    · cases last ws i <;> simp [hi]
    · cases last ws i <;> simp [hi]

/-- Where what is written depends on what was there, the assignments to `i` alone decide. -/
theorem get_foldl_filter {σ β : Type*} {step : σ → ι × α → σ} {get : σ → β} {put : α → β → β} {i : ι}
    (hstep : ∀ w s, get (step s w) = if w.1 = i then put w.2 (get s) else get s)
    (ws : List (ι × α)) (s : σ) :
    get (ws.foldl step s) = (ws.filter (·.1 = i)).foldl (fun b w => put w.2 b) (get s) := by
  induction ws generalizing s with
  | nil => rfl
  | cons w ws ih =>
    rw [List.foldl_cons, ih, hstep, List.filter_cons]
    by_cases hi : w.1 = i <;> simp [hi]

end Assignments
