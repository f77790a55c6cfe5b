/-
Programs that interact with an environment.

A `Prog Op Ret α` computes by itself and asks its environment: an operation `op`
may be answered by any element of `Ret op`.  What a run leaves behind is its
history, the operations with their answers, and `Runs` says which histories and
results a program has.  Programs may also be stuck in a loop (`hang`); such a run
has no result.

Programs with a state are `StateT σ (Prog Op Ret)`.  Their rules are those of
weakest preconditions: `wp m Q h s` says that every finished run of `m` from the
state `s`, after the history `h`, ends as `Q` demands.

* `wp_iff` — `wp` is about all runs;
* `wp_bind`, `wp_pure`, `wp_call`, … — how it is computed;
* `exec_bind`, `exec_call`, … — how a single run is built;
* `Respects`, with a rule for each construct — the frame of a program: the operations
  it may issue, and how it may change the state;
* `Prog.trace` — the run against a fixed environment; `Total` programs have one;
* `Sure` — `wp` for programs that have to finish, and to keep an invariant on the way, as long
  as the answers obey an assumption;
* `Always` — `wp` with an invariant that the history obeys at any time, also in runs that do not
  finish;
* `exec_interp_iff` — the runs of a program under a handler, and `always_interp` what the handler
  keeps is kept.
-/
import Mathlib

namespace Interaction

variable {Op : Type} {Ret : Op → Type} {σ α β : Type}

/-- An operation with its answer. -/
abbrev Event (Op : Type) (Ret : Op → Type) : Type := (op : Op) × Ret op

/-- Programs that call operations. -/
inductive Prog (Op : Type) (Ret : Op → Type) (α : Type) : Type
  | ret (a : α)
  | call (op : Op) (k : Ret op → Prog Op Ret α)
  | hang

namespace Prog

/-- Run `f` on the result of `p`. -/
def bind : Prog Op Ret α → (α → Prog Op Ret β) → Prog Op Ret β
  | ret a, f => f a
  | call op k, f => call op fun r => (k r).bind f
  | hang, _ => hang

instance : Monad (Prog Op Ret) where
  pure := ret
  bind := bind

theorem bind_ret (p : Prog Op Ret α) : p.bind ret = p := by
  induction p with
  | ret a => rfl
  | call op k ih => exact congrArg (call op) (funext ih)
  | hang => rfl

theorem bind_bind {γ : Type} (p : Prog Op Ret α) (f : α → Prog Op Ret β) (g : β → Prog Op Ret γ) :
    (p.bind f).bind g = p.bind fun a => (f a).bind g := by
  induction p with
  | ret a => rfl
  | call op k ih => exact congrArg (call op) (funext ih)
  | hang => rfl

instance : LawfulMonad (Prog Op Ret) :=
  LawfulMonad.mk' _ bind_ret (fun _ _ => rfl) bind_bind

/-- `p` can finish with the result `a` and the history `h`. -/
inductive Runs : Prog Op Ret α → List (Event Op Ret) → α → Prop
  | ret (a : α) : Runs (.ret a) [] a
  | call {op : Op} {k : Ret op → Prog Op Ret α} {h : List (Event Op Ret)} {a : α}
      (r : Ret op) : Runs (k r) h a → Runs (.call op k) (⟨op, r⟩ :: h) a

theorem Runs.bind {p : Prog Op Ret α} {f : α → Prog Op Ret β} {h h' : List (Event Op Ret)}
    {a : α} {b : β} (hp : Runs p h a) (hf : Runs (f a) h' b) : Runs (p.bind f) (h ++ h') b := by
  induction hp with
  | ret a => exact hf
  | call r _ ih => exact .call r (ih hf)

/-- A run of a sequence is a run of each part. -/
theorem Runs.of_bind {p : Prog Op Ret α} {f : α → Prog Op Ret β} {h : List (Event Op Ret)}
    {b : β} (hrun : Runs (p.bind f) h b) :
    ∃ h₁ a h₂, h = h₁ ++ h₂ ∧ Runs p h₁ a ∧ Runs (f a) h₂ b := by
  induction p generalizing h with
  | ret a => exact ⟨[], a, h, rfl, .ret a, hrun⟩
  | call op k ih =>
    rcases hrun with _ | ⟨r, hr⟩
    obtain ⟨h₁, a, h₂, rfl, hp, hf⟩ := ih r hr
    exact ⟨⟨op, r⟩ :: h₁, a, h₂, rfl, .call r hp, hf⟩
  | hang => cases hrun

/-- The answers determine the run. -/
theorem Runs.unique {p : Prog Op Ret α} {h h' t t' : List (Event Op Ret)} {a a' : α}
    (hp : Runs p h a) (hp' : Runs p h' a') (heq : h ++ t = h' ++ t') : h = h' ∧ a = a' := by
  induction hp generalizing h' with
  | ret a =>
    cases hp'
    exact ⟨rfl, rfl⟩
  | call r _ ih =>
    rcases hp' with _ | ⟨r', hr'⟩
    obtain ⟨hev, hrest⟩ := List.cons.inj heq
    obtain rfl : r = r' := eq_of_heq (Sigma.mk.inj hev).2
    obtain ⟨rfl, rfl⟩ := ih hr' hrest
    exact ⟨rfl, rfl⟩

/-- Every finished run of `p` after the history `h` ends as `Q` demands. -/
def post : Prog Op Ret α → (List (Event Op Ret) → α → Prop) → List (Event Op Ret) → Prop
  | ret a, Q, h => Q h a
  | call op k, Q, h => ∀ r, (k r).post Q (h ++ [⟨op, r⟩])
  | hang, _, _ => True

theorem post_bind (p : Prog Op Ret α) (f : α → Prog Op Ret β)
    (Q : List (Event Op Ret) → β → Prop) (h : List (Event Op Ret)) :
    (p.bind f).post Q h ↔ p.post (fun h' a => (f a).post Q h') h := by
  induction p generalizing h with
  | ret a => rfl
  | call op k ih => exact forall_congr' fun r => ih r _
  | hang => rfl

theorem post_mono {p : Prog Op Ret α} {Q Q' : List (Event Op Ret) → α → Prop}
    (hQ : ∀ h a, Q h a → Q' h a) {h : List (Event Op Ret)} (hp : p.post Q h) : p.post Q' h := by
  induction p generalizing h with
  | ret a => exact hQ h a hp
  | call op k ih => exact fun r => ih r (hp r)
  | hang => trivial

/-- `post` is about all finished runs. -/
theorem post_iff {p : Prog Op Ret α} {Q : List (Event Op Ret) → α → Prop}
    {h : List (Event Op Ret)} :
    p.post Q h ↔ ∀ h' a, Runs p h' a → Q (h ++ h') a := by
  induction p generalizing h with
  | ret a =>
    constructor
    · rintro hQ _ _ ⟨⟩
      rwa [List.append_nil]
    · intro hQ
      have h0 := hQ [] a (.ret a)
      rwa [List.append_nil] at h0
  | call op k ih =>
    constructor
    · rintro hp _ a (_ | ⟨r, hr⟩)
      have := (ih r).mp (hp r) _ a hr
      rwa [List.append_assoc, List.singleton_append] at this
    · intro hQ r
      refine (ih r).mpr fun h' a hr => ?_
      rw [List.append_assoc, List.singleton_append]
      exact hQ _ a (.call r hr)
  | hang =>
    refine ⟨fun _ h' a hr => ?_, fun _ => trivial⟩
    cases hr

/-- The run in which `f` gives every answer; there is none for a program that loops. -/
def trace (f : (op : Op) → Ret op) : Prog Op Ret α → Option (List (Event Op Ret) × α)
  | ret a => some ([], a)
  | call op k => ((k (f op)).trace f).map fun r => (⟨op, f op⟩ :: r.1, r.2)
  | hang => none

theorem runs_of_trace {f : (op : Op) → Ret op} {p : Prog Op Ret α} {h : List (Event Op Ret)}
    {a : α} (hp : p.trace f = some (h, a)) : Runs p h a ∧ ∀ e ∈ h, e.2 = f e.1 := by
  induction p generalizing h a with
  | ret b =>
    obtain ⟨rfl, rfl⟩ := Prod.mk.inj (Option.some.inj hp)
    exact ⟨.ret b, by simp⟩
  | call op k ih =>
    obtain ⟨⟨h', a'⟩, htrace, heq⟩ := Option.map_eq_some_iff.mp hp
    obtain ⟨rfl, rfl⟩ := Prod.mk.inj heq
    obtain ⟨hrun, hans⟩ := ih (f op) htrace
    exact ⟨.call (f op) hrun, List.forall_mem_cons.mpr ⟨rfl, hans⟩⟩
  | hang => cases hp

theorem trace_bind (f : (op : Op) → Ret op) (p : Prog Op Ret α) (g : α → Prog Op Ret β) :
    (p.bind g).trace f = (p.trace f).bind fun r =>
      ((g r.2).trace f).map fun r' => (r.1 ++ r'.1, r'.2) := by
  induction p with
  | ret a => simp [bind, trace]
  | call op k ih =>
    rw [bind, trace, trace, ih]
    cases (k (f op)).trace f with
    | none => rfl
    | some r =>
      simp only [Option.bind_some, Option.map_some]
      cases (g r.2).trace f <;> rfl
  | hang => rfl

end Prog

/-! ### Programs with a state -/

/-- Ask the environment. -/
def call (op : Op) : StateT σ (Prog Op Ret) (Ret op) := fun s => .call op fun r => .ret (r, s)

/-- Loop for ever. -/
def hang : StateT σ (Prog Op Ret) α := fun _ => .hang

/-- `m` can finish from the state `s` with the history `h`, the result `a` and the
state `s'`. -/
def Exec (m : StateT σ (Prog Op Ret) α) (s : σ) (h : List (Event Op Ret)) (a : α) (s' : σ) :
    Prop :=
  Prog.Runs (m s) h (a, s')

/-- Every finished run of `m` from `s`, after the history `h`, ends as `Q` demands of the
whole history, the result and the state. -/
def wp (m : StateT σ (Prog Op Ret) α) (Q : List (Event Op Ret) → α → σ → Prop)
    (h : List (Event Op Ret)) (s : σ) : Prop :=
  (m s).post (fun h' r => Q h' r.1 r.2) h

/-- A program that asks nothing drops out of a sequence. -/
theorem bind_of_ret {m : StateT σ (Prog Op Ret) α} {f : α → StateT σ (Prog Op Ret) β} {a : α}
    {s s' : σ} (hm : m s = .ret (a, s')) : (m >>= f) s = f a s' := by
  change Prog.bind (m s) _ = _
  rw [hm]
  rfl

section Runs

variable {m : StateT σ (Prog Op Ret) α} {h h' : List (Event Op Ret)} {s s' s'' : σ}

theorem exec_pure (a : α) : Exec (pure a : StateT σ (Prog Op Ret) α) s [] a s := .ret _

theorem exec_get : Exec (get : StateT σ (Prog Op Ret) σ) s [] s s := .ret _

theorem exec_modify (f : σ → σ) :
    Exec (modify f : StateT σ (Prog Op Ret) PUnit) s [] ⟨⟩ (f s) := .ret _

theorem exec_call {op : Op} (r : Ret op) :
    Exec (call op : StateT σ (Prog Op Ret) (Ret op)) s [⟨op, r⟩] r s := .call r (.ret _)

theorem exec_bind {f : α → StateT σ (Prog Op Ret) β} {a : α} {b : β}
    (hm : Exec m s h a s') (hf : Exec (f a) s' h' b s'') :
    Exec (m >>= f) s (h ++ h') b s'' :=
  Prog.Runs.bind hm hf

theorem exec_of_bind {f : α → StateT σ (Prog Op Ret) β} {b : β}
    (hrun : Exec (m >>= f) s h b s') :
    ∃ h₁ a s₁ h₂, h = h₁ ++ h₂ ∧ Exec m s h₁ a s₁ ∧ Exec (f a) s₁ h₂ b s' := by
  obtain ⟨h₁, ⟨a, s₁⟩, h₂, rfl, hm, hf⟩ := Prog.Runs.of_bind hrun
  exact ⟨h₁, a, s₁, h₂, rfl, hm, hf⟩

theorem exec_modify_bind {g : σ → σ} {f : PUnit → StateT σ (Prog Op Ret) β} {b : β} :
    Exec (modify g >>= f) s h b s' ↔ Exec (f ⟨⟩) (g s) h b s' := Iff.rfl

theorem exec_get_bind {f : σ → StateT σ (Prog Op Ret) β} {b : β} :
    Exec (get >>= f) s h b s' ↔ Exec (f s) s h b s' := Iff.rfl

/-- A run that begins with a question goes on with its answer. -/
theorem exec_call_bind {op : Op} {f : Ret op → StateT σ (Prog Op Ret) β} {b : β} :
    Exec (call op >>= f) s h b s' ↔ ∃ r h', h = ⟨op, r⟩ :: h' ∧ Exec (f r) s h' b s' := by
  constructor
  · intro hrun
    rcases hrun with _ | ⟨r, hr⟩
    exact ⟨r, _, rfl, hr⟩
  · rintro ⟨r, h', rfl, hr⟩
    exact .call r hr

theorem exec_of_ret {a : α} (hm : m s = .ret (a, s')) : Exec m s [] a s' := by
  rw [Exec, hm]
  exact .ret _

/-- A program that asks nothing has no other run. -/
theorem Exec.eq_of_ret {a b : α} (hrun : Exec m s h b s'') (hm : m s = .ret (a, s')) :
    h = [] ∧ b = a ∧ s'' = s' := by
  rw [Exec, hm] at hrun
  generalize hr : (b, s'') = r at hrun
  cases hrun
  exact ⟨rfl, Prod.mk.inj hr⟩

theorem exec_ite_pos {c : Prop} [Decidable c] {m' : StateT σ (Prog Op Ret) α} {a : α}
    (hc : c) (hm : Exec m s h a s') : Exec (if c then m else m') s h a s' := by
  rwa [if_pos hc]

theorem exec_ite_neg {c : Prop} [Decidable c] {m' : StateT σ (Prog Op Ret) α} {a : α}
    (hc : ¬ c) (hm : Exec m' s h a s') : Exec (if c then m else m') s h a s' := by
  rwa [if_neg hc]

end Runs

section Rules

variable {m : StateT σ (Prog Op Ret) α} {Q Q' : List (Event Op Ret) → α → σ → Prop}
  {h : List (Event Op Ret)} {s : σ}

/-- **`wp` is about all finished runs.** -/
theorem wp_iff : wp m Q h s ↔ ∀ h' a s', Exec m s h' a s' → Q (h ++ h') a s' := by
  rw [wp, Prog.post_iff]
  exact ⟨fun H h' a s' => H h' (a, s'), fun H h' r => H h' r.1 r.2⟩

theorem wp_mono (hQ : ∀ h a s, Q h a s → Q' h a s) (hm : wp m Q h s) : wp m Q' h s := by
  rw [wp] at hm ⊢
  exact Prog.post_mono (fun h' (r : α × σ) => hQ h' r.1 r.2) hm

theorem wp_congr {m' : StateT σ (Prog Op Ret) α} {s' : σ} (hm : m s = m' s') :
    wp m Q h s ↔ wp m' Q h s' := by
  rw [wp, wp, hm]

theorem wp_of_ret {a : α} {s' : σ} (hm : m s = .ret (a, s')) : wp m Q h s ↔ Q h a s' := by
  rw [wp, hm]
  rfl

@[simp] theorem wp_pure {a : α} {Q : List (Event Op Ret) → α → σ → Prop} :
    wp (pure a : StateT σ (Prog Op Ret) α) Q h s ↔ Q h a s := Iff.rfl

@[simp] theorem wp_bind {f : α → StateT σ (Prog Op Ret) β}
    {Q : List (Event Op Ret) → β → σ → Prop} :
    wp (m >>= f) Q h s ↔ wp m (fun h' a s' => wp (f a) Q h' s') h s :=
  Prog.post_bind (m s) _ _ h

@[simp] theorem wp_get {Q : List (Event Op Ret) → σ → σ → Prop} :
    wp (get : StateT σ (Prog Op Ret) σ) Q h s ↔ Q h s s := Iff.rfl

@[simp] theorem wp_modify {f : σ → σ} {Q : List (Event Op Ret) → PUnit → σ → Prop} :
    wp (modify f : StateT σ (Prog Op Ret) PUnit) Q h s ↔ Q h ⟨⟩ (f s) := Iff.rfl

@[simp] theorem wp_call {op : Op} {Q : List (Event Op Ret) → Ret op → σ → Prop} :
    wp (call op : StateT σ (Prog Op Ret) (Ret op)) Q h s ↔ ∀ r, Q (h ++ [⟨op, r⟩]) r s :=
  Iff.rfl

@[simp] theorem wp_hang {Q : List (Event Op Ret) → α → σ → Prop} :
    wp (hang : StateT σ (Prog Op Ret) α) Q h s := trivial

theorem wp_ite {c : Prop} [Decidable c] {m' : StateT σ (Prog Op Ret) α} :
    wp (if c then m else m') Q h s ↔ (c → wp m Q h s) ∧ (¬ c → wp m' Q h s) := by
  by_cases hc : c <;> simp [hc]

/-- A run after some history is a run of its own. -/
theorem wp_of_exec (hm : ∀ h' a s', Exec m s h' a s' → Q (h ++ h') a s') : wp m Q h s :=
  wp_iff.mpr hm

end Rules

/-! ### Programs that finish -/

/-- `m` finishes in every fixed environment. -/
def Total (m : StateT σ (Prog Op Ret) α) : Prop := ∀ f s, ((m s).trace f).isSome

section Total

variable {m : StateT σ (Prog Op Ret) α} {f : α → StateT σ (Prog Op Ret) β}

theorem total_pure (a : α) : Total (pure a : StateT σ (Prog Op Ret) α) := fun _ _ => rfl

theorem total_get : Total (get : StateT σ (Prog Op Ret) σ) := fun _ _ => rfl

theorem total_modify (g : σ → σ) : Total (modify g : StateT σ (Prog Op Ret) PUnit) :=
  fun _ _ => rfl

theorem total_call (op : Op) : Total (call op : StateT σ (Prog Op Ret) (Ret op)) :=
  fun _ _ => rfl

theorem total_bind (hm : Total m) (hf : ∀ a, Total (f a)) : Total (m >>= f) := by
  intro o s
  change (Prog.trace o (Prog.bind (m s) _)).isSome
  obtain ⟨⟨h, a, s'⟩, hr⟩ := Option.isSome_iff_exists.mp (hm o s)
  rw [Prog.trace_bind, hr, Option.bind_some, Option.isSome_map]
  exact hf a o s'

theorem total_ite {c : Prop} [Decidable c] {m' : StateT σ (Prog Op Ret) α} (hm : Total m)
    (hm' : Total m') : Total (if c then m else m') := by
  by_cases hc : c
  · rwa [if_pos hc]
  · rwa [if_neg hc]

/-- A program that finishes has a run with the answers of the environment. -/
theorem Total.exists_run (hm : Total m) (o : (op : Op) → Ret op) (s : σ) :
    ∃ h a s', Exec m s h a s' ∧ ∀ e ∈ h, e.2 = o e.1 := by
  obtain ⟨⟨h, a, s'⟩, hr⟩ := Option.isSome_iff_exists.mp (hm o s)
  obtain ⟨hrun, hans⟩ := Prog.runs_of_trace hr
  exact ⟨h, a, s', hrun, hans⟩

end Total

/-! ### What a program does to history and state -/

/-- A relation between the state in front of a run, its history and the state behind it that
holds of a sequence of runs if it holds of each. -/
class Composes (P : σ → List (Event Op Ret) → σ → Prop) : Prop where
  nil : ∀ s, P s [] s
  append : ∀ {s s' s'' h h'}, P s h s' → P s' h' s'' → P s (h ++ h') s''

/-- Every finished run of `m` obeys `P`. -/
def Obeys (P : σ → List (Event Op Ret) → σ → Prop) (m : StateT σ (Prog Op Ret) α) : Prop :=
  ∀ s h a s', Exec m s h a s' → P s h s'

section Obeys

variable {P : σ → List (Event Op Ret) → σ → Prop} {m : StateT σ (Prog Op Ret) α}

theorem obeys_pure [Composes P] (a : α) : Obeys P (pure a : StateT σ (Prog Op Ret) α) := by
  rintro s _ _ _ ⟨⟩
  exact Composes.nil s

theorem obeys_get [Composes P] : Obeys P (get : StateT σ (Prog Op Ret) σ) := by
  rintro s _ _ _ ⟨⟩
  exact Composes.nil s

theorem obeys_modify {f : σ → σ} (hf : ∀ s, P s [] (f s)) :
    Obeys P (modify f : StateT σ (Prog Op Ret) PUnit) := by
  rintro s _ _ _ ⟨⟩
  exact hf s

theorem obeys_call {op : Op} (hop : ∀ s r, P s [⟨op, r⟩] s) :
    Obeys P (call op : StateT σ (Prog Op Ret) (Ret op)) := by
  rintro s _ _ _ (_ | ⟨r, hr⟩)
  cases hr
  exact hop s _

theorem obeys_hang : Obeys P (hang : StateT σ (Prog Op Ret) α) := by
  rintro s _ _ _ ⟨⟩

theorem obeys_bind [Composes P] {f : α → StateT σ (Prog Op Ret) β} (hm : Obeys P m)
    (hf : ∀ a, Obeys P (f a)) : Obeys P (m >>= f) := by
  intro s h b s' hrun
  obtain ⟨h₁, a, s₁, h₂, rfl, hrun₁, hrun₂⟩ := exec_of_bind hrun
  exact Composes.append (hm s h₁ a s₁ hrun₁) (hf a s₁ h₂ b s' hrun₂)

theorem obeys_ite {c : Prop} [Decidable c] {m' : StateT σ (Prog Op Ret) α}
    (hm : Obeys P m) (hm' : Obeys P m') : Obeys P (if c then m else m') := by
  by_cases hc : c
  · rwa [if_pos hc]
  · rwa [if_neg hc]

end Obeys

/-- `m` issues only operations of `A` and moves the state along `R`. -/
def Respects (A : Op → Prop) (R : σ → σ → Prop) (m : StateT σ (Prog Op Ret) α) : Prop :=
  ∀ s h a s', Exec m s h a s' → (∀ e ∈ h, A e.1) ∧ R s s'

section Respects

variable {A B : Op → Prop} {R : σ → σ → Prop} {m : StateT σ (Prog Op Ret) α}

/-- The operations of a run are those of `A`, and its states are related by `R`. -/
abbrev Within (A : Op → Prop) (R : σ → σ → Prop) (s : σ) (h : List (Event Op Ret)) (s' : σ) :
    Prop :=
  (∀ e ∈ h, A e.1) ∧ R s s'

instance [Std.Refl R] [IsTrans σ R] : @Composes Op Ret σ (Within A R) where
  nil s := ⟨by simp, Std.Refl.refl s⟩
  append hs hs' :=
    ⟨fun e he => (List.mem_append.mp he).elim (hs.1 e) (hs'.1 e), IsTrans.trans _ _ _ hs.2 hs'.2⟩

theorem respects_pure [Std.Refl R] (a : α) :
    Respects A R (pure a : StateT σ (Prog Op Ret) α) := by
  rintro s _ _ _ ⟨⟩
  exact ⟨by simp, Std.Refl.refl s⟩

theorem respects_get [Std.Refl R] : Respects A R (get : StateT σ (Prog Op Ret) σ) := by
  rintro s _ _ _ ⟨⟩
  exact ⟨by simp, Std.Refl.refl s⟩

theorem respects_modify {f : σ → σ} (hf : ∀ s, R s (f s)) :
    Respects A R (modify f : StateT σ (Prog Op Ret) PUnit) :=
  obeys_modify fun s => ⟨by simp, hf s⟩

theorem respects_call [Std.Refl R] {op : Op} (hop : A op) :
    Respects A R (call op : StateT σ (Prog Op Ret) (Ret op)) :=
  obeys_call fun s r => ⟨by simpa using hop, Std.Refl.refl s⟩

theorem respects_hang : Respects A R (hang : StateT σ (Prog Op Ret) α) := obeys_hang

theorem respects_bind [Std.Refl R] [IsTrans σ R] {f : α → StateT σ (Prog Op Ret) β}
    (hm : Respects A R m) (hf : ∀ a, Respects A R (f a)) : Respects A R (m >>= f) :=
  obeys_bind (P := Within A R) hm hf

theorem respects_ite {c : Prop} [Decidable c] {m' : StateT σ (Prog Op Ret) α}
    (hm : Respects A R m) (hm' : Respects A R m') : Respects A R (if c then m else m') :=
  obeys_ite (P := Within A R) hm hm'

theorem Respects.mono (hm : Respects A R m) (hAB : ∀ op, A op → B op) : Respects B R m :=
  fun s h a s' hrun => ⟨fun e he => hAB e.1 ((hm s h a s' hrun).1 e he), (hm s h a s' hrun).2⟩

/-- Rule for a part of a program of which only its frame matters. -/
theorem Respects.wp {Q : List (Event Op Ret) → α → σ → Prop} {h : List (Event Op Ret)} {s : σ}
    (hm : Respects A R m)
    (hQ : ∀ t a s', (∀ e ∈ t, A e.1) → R s s' → Q (h ++ t) a s') : Interaction.wp m Q h s :=
  wp_of_exec fun t a s' hrun => hQ t a s' (hm s t a s' hrun).1 (hm s t a s' hrun).2

end Respects

/-! ### Runs that are not finished -/

/-- `p` can have come as far as the history `h`. -/
inductive Prog.Reaches : Prog Op Ret α → List (Event Op Ret) → Prop
  | start (p : Prog Op Ret α) : Reaches p []
  | call {op : Op} {k : Ret op → Prog Op Ret α} {h : List (Event Op Ret)} (r : Ret op) :
      Reaches (k r) h → Reaches (.call op k) (⟨op, r⟩ :: h)

theorem Prog.Runs.reaches {p : Prog Op Ret α} {h : List (Event Op Ret)} {a : α}
    (hp : Runs p h a) : p.Reaches h := by
  induction hp with
  | ret a => exact .start _
  | call r _ ih => exact .call r ih

/-- A sequence has come as far as `h` in its first part, or in its second. -/
theorem Prog.Reaches.of_bind {p : Prog Op Ret α} {f : α → Prog Op Ret β}
    {h : List (Event Op Ret)} (hreach : (p.bind f).Reaches h) :
    p.Reaches h ∨ ∃ h₁ a h₂, h = h₁ ++ h₂ ∧ Runs p h₁ a ∧ (f a).Reaches h₂ := by
  induction p generalizing h with
  | ret a => exact .inr ⟨[], a, h, rfl, .ret a, hreach⟩
  | call op k ih =>
    rcases hreach with _ | ⟨r, hr⟩
    · exact .inl (.start _)
    · rcases ih r hr with hp | ⟨h₁, a, h₂, rfl, hp, hf⟩
      · exact .inl (.call r hp)
      · exact .inr ⟨⟨op, r⟩ :: h₁, a, h₂, rfl, .call r hp, hf⟩
  | hang =>
    cases hreach
    exact .inl (.start _)

theorem Prog.Reaches.bind {p : Prog Op Ret α} {f : α → Prog Op Ret β} {h : List (Event Op Ret)}
    (hp : p.Reaches h) : (p.bind f).Reaches h := by
  induction hp with
  | start p => exact .start _
  | call r _ ih => exact .call r ih

theorem Prog.Runs.reaches_bind {p : Prog Op Ret α} {f : α → Prog Op Ret β}
    {h h' : List (Event Op Ret)} {a : α} (hp : Runs p h a) (hf : (f a).Reaches h') :
    (p.bind f).Reaches (h ++ h') := by
  induction hp with
  | ret a => exact hf
  | call r _ ih => exact .call r (ih hf)

/-- `m` can have come from the state `s` as far as the history `h`, whether it finishes or
not. -/
def Reaches (m : StateT σ (Prog Op Ret) α) (s : σ) (h : List (Event Op Ret)) : Prop :=
  (m s).Reaches h

/-- `m` issues only operations of `A`, whether it finishes or not. -/
def Issues (A : Op → Prop) (m : StateT σ (Prog Op Ret) α) : Prop :=
  ∀ s h, Reaches m s h → ∀ e ∈ h, A e.1

section Reaches

variable {A B : Op → Prop} {m m' : StateT σ (Prog Op Ret) α} {f : α → StateT σ (Prog Op Ret) β}
  {s s' : σ} {h : List (Event Op Ret)} {a : α}

theorem Exec.reaches (hrun : Exec m s h a s') : Reaches m s h := Prog.Runs.reaches hrun

theorem reaches_of_bind (hreach : Reaches (m >>= f) s h) :
    Reaches m s h ∨ ∃ h₁ a s₁ h₂, h = h₁ ++ h₂ ∧ Exec m s h₁ a s₁ ∧ Reaches (f a) s₁ h₂ := by
  rcases Prog.Reaches.of_bind hreach with hm | ⟨h₁, ⟨a, s₁⟩, h₂, rfl, hm, hf⟩
  · exact .inl hm
  · exact .inr ⟨h₁, a, s₁, h₂, rfl, hm, hf⟩

/-- A sequence may stop in its first part, -/
theorem reaches_bind_left (hm : Reaches m s h) : Reaches (m >>= f) s h := Prog.Reaches.bind hm

/-- or in its second. -/
theorem reaches_bind_right {h' : List (Event Op Ret)} (hm : Exec m s h a s')
    (hf : Reaches (f a) s' h') : Reaches (m >>= f) s (h ++ h') :=
  Prog.Runs.reaches_bind hm hf

theorem reaches_of_ret (hm : m s = .ret (a, s')) (hreach : Reaches m s h) : h = [] := by
  rw [Reaches, hm] at hreach
  cases hreach
  rfl

theorem reaches_modify_bind {g : σ → σ} {f : PUnit → StateT σ (Prog Op Ret) β} :
    Reaches (modify g >>= f) s h ↔ Reaches (f ⟨⟩) (g s) h := Iff.rfl

theorem reaches_get_bind {f : σ → StateT σ (Prog Op Ret) β} :
    Reaches (get >>= f) s h ↔ Reaches (f s) s h := Iff.rfl

theorem reaches_call_bind {op : Op} {f : Ret op → StateT σ (Prog Op Ret) β} :
    Reaches (call op >>= f) s h ↔
      h = [] ∨ ∃ r h', h = ⟨op, r⟩ :: h' ∧ Reaches (f r) s h' := by
  constructor
  · intro hreach
    rcases hreach with _ | ⟨r, hr⟩
    · exact .inl rfl
    · exact .inr ⟨r, _, rfl, hr⟩
  · rintro (rfl | ⟨r, h', rfl, hr⟩)
    · exact .start _
    · exact .call r hr

theorem issues_pure (a : α) : Issues A (pure a : StateT σ (Prog Op Ret) α) := by
  rintro s _ ⟨⟩
  simp

theorem issues_get : Issues A (get : StateT σ (Prog Op Ret) σ) := by
  rintro s _ ⟨⟩
  simp

theorem issues_modify (f : σ → σ) : Issues A (modify f : StateT σ (Prog Op Ret) PUnit) := by
  rintro s _ ⟨⟩
  simp

theorem issues_hang : Issues A (hang : StateT σ (Prog Op Ret) α) := by
  rintro s _ ⟨⟩
  simp

theorem issues_call {op : Op} (hop : A op) :
    Issues A (call op : StateT σ (Prog Op Ret) (Ret op)) := by
  rintro s _ (_ | ⟨r, ⟨⟩⟩)
  · simp
  · simpa using hop

theorem issues_bind (hm : Issues A m) (hf : ∀ a, Issues A (f a)) : Issues A (m >>= f) := by
  intro s h hreach e he
  rcases reaches_of_bind hreach with hreach₁ | ⟨h₁, a, s₁, h₂, rfl, hrun₁, hreach₂⟩
  · exact hm s h hreach₁ e he
  · rcases List.mem_append.mp he with he₁ | he₂
    · exact hm s h₁ hrun₁.reaches e he₁
    · exact hf a s₁ h₂ hreach₂ e he₂

theorem issues_ite {c : Prop} [Decidable c] (hm : Issues A m) (hm' : Issues A m') :
    Issues A (if c then m else m') := by
  by_cases hc : c
  · rwa [if_pos hc]
  · rwa [if_neg hc]

theorem Issues.mono (hm : Issues A m) (hAB : ∀ op, A op → B op) : Issues B m :=
  fun s h hreach e he => hAB e.1 (hm s h hreach e he)

/-- Rule for a part of a program of which only its operations matter. -/
theorem Issues.wp {Q : List (Event Op Ret) → α → σ → Prop} (hm : Issues A m)
    (hQ : ∀ t a s', (∀ e ∈ t, A e.1) → Q (h ++ t) a s') : Interaction.wp m Q h s :=
  wp_of_exec fun t a s' hrun => hQ t a s' (hm s t hrun.reaches)

/-- `Respects` for all runs: `m` issues only operations of `A`, whether it finishes or not, and
moves the state along `R`. -/
structure Confines (A : Op → Prop) (R : σ → σ → Prop) (m : StateT σ (Prog Op Ret) α) : Prop where
  issues : Issues A m
  respects : Respects A R m

section Confines

variable {R : σ → σ → Prop}

theorem confines_pure [Std.Refl R] (a : α) : Confines A R (pure a : StateT σ (Prog Op Ret) α) :=
  ⟨issues_pure a, respects_pure a⟩

theorem confines_get [Std.Refl R] : Confines A R (get : StateT σ (Prog Op Ret) σ) :=
  ⟨issues_get, respects_get⟩

theorem confines_modify {g : σ → σ} (hg : ∀ s, R s (g s)) :
    Confines A R (modify g : StateT σ (Prog Op Ret) PUnit) :=
  ⟨issues_modify g, respects_modify hg⟩

theorem confines_call [Std.Refl R] {op : Op} (hop : A op) :
    Confines A R (call op : StateT σ (Prog Op Ret) (Ret op)) :=
  ⟨issues_call hop, respects_call hop⟩

theorem confines_bind [Std.Refl R] [IsTrans σ R] (hm : Confines A R m) (hf : ∀ a, Confines A R (f a)) :
    Confines A R (m >>= f) :=
  ⟨issues_bind hm.issues fun a => (hf a).issues,
    respects_bind hm.respects fun a => (hf a).respects⟩

theorem confines_ite {c : Prop} [Decidable c] (hm : Confines A R m) (hm' : Confines A R m') :
    Confines A R (if c then m else m') :=
  ⟨issues_ite hm.issues hm'.issues, respects_ite hm.respects hm'.respects⟩

theorem Confines.mono {R' : σ → σ → Prop} (hm : Confines A R m) (hAB : ∀ op, A op → B op)
    (hR : ∀ s s', R s s' → R' s s') : Confines B R' m :=
  ⟨hm.issues.mono hAB, fun s h a s' hrun =>
    ⟨((hm.respects.mono hAB) s h a s' hrun).1, hR s s' (hm.respects s h a s' hrun).2⟩⟩

end Confines

end Reaches

/-! ### Programs that finish under an assumption -/

/-- `p` can get stuck in a loop behind the history `h`. -/
inductive Prog.Hangs : Prog Op Ret α → List (Event Op Ret) → Prop
  | hang : Hangs .hang []
  | call {op : Op} {k : Ret op → Prog Op Ret α} {h : List (Event Op Ret)} (r : Ret op) :
      Hangs (k r) h → Hangs (.call op k) (⟨op, r⟩ :: h)

/-- As long as the answers are those of `A`, `p` does not get stuck, what has been asked after
the history `h` obeys `I` at any time, and `p` ends as `Q` demands. -/
def Prog.sure (A : Event Op Ret → Prop) (I : List (Event Op Ret) → Prop) :
    Prog Op Ret α → (List (Event Op Ret) → α → Prop) → List (Event Op Ret) → Prop
  | ret a, Q, h => I h ∧ Q h a
  | call op k, Q, h => I h ∧ ∀ r, A ⟨op, r⟩ → (k r).sure A I Q (h ++ [⟨op, r⟩])
  | hang, _, _ => False

/-- `m` can get stuck in a loop from the state `s`, behind the history `h`. -/
def Hangs (m : StateT σ (Prog Op Ret) α) (s : σ) (h : List (Event Op Ret)) : Prop :=
  (m s).Hangs h

/-- `Prog.sure` of `m` from the state `s`. -/
def Sure (A : Event Op Ret → Prop) (I : List (Event Op Ret) → Prop)
    (m : StateT σ (Prog Op Ret) α) (Q : List (Event Op Ret) → α → σ → Prop)
    (h : List (Event Op Ret)) (s : σ) : Prop :=
  (m s).sure A I (fun h' r => Q h' r.1 r.2) h

section Sure

variable {A : Event Op Ret → Prop} {I : List (Event Op Ret) → Prop}

/-- What `sure` says of a run under the assumption, finished or not. -/
theorem Prog.sure_of_answers {p : Prog Op Ret α} {Q : List (Event Op Ret) → α → Prop}
    {h h' : List (Event Op Ret)} (hp : p.sure A I Q h) (hans : ∀ e ∈ h', A e) :
    ¬ p.Hangs h' ∧ (p.Reaches h' → I (h ++ h')) ∧ ∀ a, Runs p h' a → Q (h ++ h') a := by
  induction p generalizing h h' with
  | ret a =>
    refine ⟨fun hhang => (by cases hhang), fun hreach => ?_, fun b hrun => ?_⟩
    · cases hreach
      rw [List.append_nil]
      exact hp.1
    · cases hrun
      rw [List.append_nil]
      exact hp.2
  | call op k ih =>
    have hnext (r : Ret op) {t : List (Event Op Ret)} (ht : ∀ e ∈ ⟨op, r⟩ :: t, A e) :=
      ih r (hp.2 r (ht _ (List.mem_cons_self ..))) fun e he => ht e (List.mem_cons_of_mem _ he)
    simp only [List.append_assoc, List.singleton_append] at hnext
    refine ⟨?_, ?_, ?_⟩
    · rintro (_ | ⟨r, hr⟩)
      exact (hnext r hans).1 hr
    · rintro (_ | ⟨r, hr⟩)
      · rw [List.append_nil]
        exact hp.1
      · exact (hnext r hans).2.1 hr
    · rintro a (_ | ⟨r, hr⟩)
      exact (hnext r hans).2.2 a hr
  | hang => exact hp.elim

variable {m m' : StateT σ (Prog Op Ret) α} {Q : List (Event Op Ret) → α → σ → Prop}
  {h h' : List (Event Op Ret)} {s : σ}

/-- **What `Sure` says of a run under the assumption, finished or not.** -/
theorem Sure.of_answers (hm : Sure A I m Q h s) (hans : ∀ e ∈ h', A e) :
    ¬ Hangs m s h' ∧ (Reaches m s h' → I (h ++ h')) ∧
      ∀ a s', Exec m s h' a s' → Q (h ++ h') a s' := by
  obtain ⟨hhang, hreach, hrun⟩ := Prog.sure_of_answers hm hans
  exact ⟨hhang, hreach, fun a s' hexec => hrun (a, s') hexec⟩

theorem sure_pure {a : α} (hI : I h) (hQ : Q h a s) :
    Sure A I (pure a : StateT σ (Prog Op Ret) α) Q h s := ⟨hI, hQ⟩

theorem sure_get_bind {f : σ → StateT σ (Prog Op Ret) α} :
    Sure A I (get >>= f) Q h s ↔ Sure A I (f s) Q h s := Iff.rfl

theorem sure_ite {c : Prop} [Decidable c] :
    Sure A I (if c then m else m') Q h s ↔
      (c → Sure A I m Q h s) ∧ (¬ c → Sure A I m' Q h s) := by
  by_cases hc : c <;> simp [hc]

end Sure

/-! ### Programs that keep an invariant of their history -/

/-- From the state `s`, after the history `h`, what has been asked obeys `I` at any time, and
every finished run ends as `Q` demands. -/
structure Always (I : List (Event Op Ret) → Prop) (m : StateT σ (Prog Op Ret) α)
    (Q : List (Event Op Ret) → α → σ → Prop) (h : List (Event Op Ret)) (s : σ) : Prop where
  reaches : ∀ h', Reaches m s h' → I (h ++ h')
  exec : ∀ h' a s', Exec m s h' a s' → Q (h ++ h') a s'

section Always

variable {I I' : List (Event Op Ret) → Prop} {m m' : StateT σ (Prog Op Ret) α}
  {Q Q' : List (Event Op Ret) → α → σ → Prop} {h : List (Event Op Ret)} {s s' : σ}

theorem Always.mono (hm : Always I m Q h s) (hQ : ∀ h a s, Q h a s → Q' h a s) :
    Always I m Q' h s :=
  ⟨hm.reaches, fun h' a s' hrun => hQ _ a s' (hm.exec h' a s' hrun)⟩

theorem always_of_ret {a : α} (hm : m s = .ret (a, s')) (hI : I h) (hQ : Q h a s') :
    Always I m Q h s := by
  refine ⟨fun h' hreach => ?_, fun h' a' s'' hrun => ?_⟩
  · rw [reaches_of_ret hm hreach, List.append_nil]
    exact hI
  · obtain ⟨rfl, rfl, rfl⟩ := hrun.eq_of_ret hm
    rwa [List.append_nil]

theorem always_pure {a : α} (hI : I h) (hQ : Q h a s) :
    Always I (pure a : StateT σ (Prog Op Ret) α) Q h s := always_of_ret rfl hI hQ

theorem always_hang (hI : I h) : Always I (hang : StateT σ (Prog Op Ret) α) Q h s := by
  refine ⟨fun h' hreach => ?_, fun h' a s' hrun => ?_⟩
  · cases hreach
    rwa [List.append_nil]
  · cases hrun

theorem always_call {op : Op} {Q : List (Event Op Ret) → Ret op → σ → Prop} (hI : I h)
    (hcall : ∀ r, I (h ++ [⟨op, r⟩]) ∧ Q (h ++ [⟨op, r⟩]) r s) :
    Always I (call op : StateT σ (Prog Op Ret) (Ret op)) Q h s := by
  constructor
  · rintro h' (_ | ⟨r, ⟨⟩⟩)
    · rwa [List.append_nil]
    · exact (hcall r).1
  · rintro h' r s' (_ | ⟨r, ⟨⟩⟩)
    exact (hcall r).2

theorem always_bind {f : α → StateT σ (Prog Op Ret) β} {R : List (Event Op Ret) → β → σ → Prop}
    (hm : Always I m Q h s) (hf : ∀ h' a s', Q h' a s' → Always I (f a) R h' s') :
    Always I (m >>= f) R h s := by
  refine ⟨fun h' hreach => ?_, fun h' b s' hrun => ?_⟩
  · rcases reaches_of_bind hreach with hreach | ⟨h₁, a, s₁, h₂, rfl, hrun, hreach⟩
    · exact hm.reaches h' hreach
    · rw [← List.append_assoc]
      exact (hf _ a s₁ (hm.exec h₁ a s₁ hrun)).reaches h₂ hreach
  · obtain ⟨h₁, a, s₁, h₂, rfl, hrun₁, hrun₂⟩ := exec_of_bind hrun
    rw [← List.append_assoc]
    exact (hf _ a s₁ (hm.exec h₁ a s₁ hrun₁)).exec h₂ b s' hrun₂

theorem always_call_bind {op : Op} {f : Ret op → StateT σ (Prog Op Ret) α} (hI : I h)
    (hf : ∀ r, Always I (f r) Q (h ++ [⟨op, r⟩]) s) : Always I (call op >>= f) Q h s := by
  refine always_bind (Q := fun h' r s' => Always I (f r) Q h' s') (always_call hI fun r => ?_)
    fun _ _ _ => id
  have hnow := (hf r).reaches [] (.start _)
  rw [List.append_nil] at hnow
  exact ⟨hnow, hf r⟩

theorem always_get_bind {f : σ → StateT σ (Prog Op Ret) α} :
    Always I (get >>= f) Q h s ↔ Always I (f s) Q h s :=
  ⟨fun hm => ⟨hm.reaches, hm.exec⟩, fun hm => ⟨hm.reaches, hm.exec⟩⟩

theorem always_modify_bind {g : σ → σ} {f : PUnit → StateT σ (Prog Op Ret) α} :
    Always I (modify g >>= f) Q h s ↔ Always I (f ⟨⟩) Q h (g s) :=
  ⟨fun hm => ⟨hm.reaches, hm.exec⟩, fun hm => ⟨hm.reaches, hm.exec⟩⟩

theorem always_ite {c : Prop} [Decidable c] (hm : c → Always I m Q h s)
    (hm' : ¬ c → Always I m' Q h s) : Always I (if c then m else m') Q h s := by
  by_cases hc : c
  · rw [if_pos hc]
    exact hm hc
  · rw [if_neg hc]
    exact hm' hc

end Always

/-! ### The order of operations -/

/-- Every operation of `A` in a history has a history of `P` in front of it. -/
def Preceded (A : Op → Prop) (P : List (Event Op Ret) → Prop) (h : List (Event Op Ret)) : Prop :=
  ∀ h₁ e h₂, h = h₁ ++ e :: h₂ → A e.1 → P h₁

section Preceded

variable {A : Op → Prop} {P Q : List (Event Op Ret) → Prop} {h h' : List (Event Op Ret)}

theorem preceded_of_none (hnone : ∀ e ∈ h, ¬ A e.1) : Preceded A P h := by
  rintro h₁ e h₂ rfl hA
  exact absurd hA (hnone e (by simp))

/-- The operations behind a history without any. -/
theorem Preceded.append (hnone : ∀ e ∈ h, ¬ A e.1) (hafter : Preceded A P h')
    (hPQ : ∀ h₁, P h₁ → Q (h ++ h₁)) : Preceded A Q (h ++ h') := by
  intro h₁ e h₂ heq hA
  rcases List.append_eq_append_iff.mp heq with ⟨t, rfl, hrest⟩ | ⟨t, rfl, hrest⟩
  · exact hPQ t (hafter t e h₂ hrest hA)
  · cases t with
    | nil =>
      have hP := hPQ [] (hafter [] e h₂ hrest.symm hA)
      rwa [List.append_nil, List.append_nil] at hP
    | cons e' t =>
      obtain ⟨rfl, -⟩ := List.cons.inj hrest
      exact absurd hA (hnone e (by simp))

end Preceded

/-! ### Handlers -/

section Handlers

variable {Op' : Type} {Ret' : Op' → Type} {τ : Type}

/-- A handler answers the operations of another interface, with a state of its own. -/
abbrev Handler (Op : Type) (Ret : Op → Type) (τ σ : Type) (Op' : Type) (Ret' : Op' → Type) : Type :=
  (op : Op) → τ → StateT σ (Prog Op' Ret') (Ret op × τ)

/-- The program in which a handler answers the operations of `p`. -/
def Prog.interp (f : Handler Op Ret τ σ Op' Ret') : Prog Op Ret α → τ → StateT σ (Prog Op' Ret') α
  | .ret a, _ => pure a
  | .call op k, t => do
    let r ← f op t
    (k r.1).interp f r.2
  | .hang, _ => Interaction.hang

/-- A handler that answers a run by itself, without changing its state, finishes it. -/
theorem interp_of_runs {f : Handler Op Ret τ σ Op' Ret'} {p : Prog Op Ret α}
    {h : List (Event Op Ret)} {a : α} (hp : Prog.Runs p h a) {t : τ} {s : σ}
    (hans : ∀ e ∈ h, f e.1 t s = .ret ((e.2, t), s)) : p.interp f t s = .ret (a, s) := by
  induction hp with
  | ret a => rfl
  | call r _ ih =>
    obtain ⟨hr, hrest⟩ := List.forall_mem_cons.mp hans
    rw [Prog.interp, bind_of_ret hr, ih hrest]

/-- From the states `t` and `s` the handler has answered the history `g`, with the history `h` of
its own, and is left in the state `s'`. -/
inductive Served (f : Handler Op Ret τ σ Op' Ret') :
    τ → σ → List (Event Op Ret) → List (Event Op' Ret') → σ → Prop
  | nil (t : τ) (s : σ) : Served f t s [] [] s
  | cons {op : Op} {r : Ret op} {t t' : τ} {s s₁ s' : σ} {g : List (Event Op Ret)}
      {h h' : List (Event Op' Ret')} (hop : Exec (f op t) s h (r, t') s₁)
      (hrest : Served f t' s₁ g h' s') : Served f t s (⟨op, r⟩ :: g) (h ++ h') s'

/-- **A run with a handler is a run of the program that the handler has answered.** -/
theorem exec_interp_iff {f : Handler Op Ret τ σ Op' Ret'} {p : Prog Op Ret α} {t : τ} {s s' : σ}
    {h : List (Event Op' Ret')} {a : α} :
    Exec (p.interp f t) s h a s' ↔ ∃ g, Prog.Runs p g a ∧ Served f t s g h s' := by
  constructor
  · intro hrun
    induction p generalizing t s h with
    | ret b =>
      cases hrun
      exact ⟨[], .ret _, .nil t _⟩
    | call op k ih =>
      obtain ⟨h₁, r, s₁, h₂, rfl, hop, hrest⟩ := exec_of_bind hrun
      obtain ⟨g, hg, hserved⟩ := ih r.1 hrest
      exact ⟨⟨op, r.1⟩ :: g, .call r.1 hg, .cons hop hserved⟩
    | hang => cases hrun
  · rintro ⟨g, hg, hserved⟩
    induction hg generalizing t s h with
    | ret b =>
      cases hserved
      exact exec_pure b
    | call r _ ih =>
      cases hserved with
      | cons hop hrest => exact exec_bind hop (ih hrest)

/-- A handler without a state of its own answers the parts of a sequence one after the other. -/
theorem interp_bind {f : Handler Op Ret Unit σ Op' Ret'} (p : Prog Op Ret α)
    (k : α → Prog Op Ret β) :
    (p.bind k).interp f () = (p.interp f () >>= fun a => (k a).interp f ()) := by
  induction p with
  | ret a => rfl
  | call op k' ih =>
    funext s
    change Prog.bind (f op () s) _ = Prog.bind (Prog.bind (f op () s) _) _
    rw [Prog.bind_bind]
    exact congrArg (Prog.bind (f op () s)) (funext fun r => congrFun (ih r.1.1) r.2)
  | hang => rfl

/-- **What a handler keeps for every operation that a program issues is kept in every run.** -/
theorem always_interp {f : Handler Op Ret τ σ Op' Ret'} {A : Op → Prop}
    {I : List (Event Op' Ret') → Prop} {J : List (Event Op' Ret') → σ → Prop}
    (hJ : ∀ h s, J h s → I h)
    (hf : ∀ op t h s, A op → J h s → Always I (f op t) (fun h' _ s' => J h' s') h s)
    (hret : ∀ op, Nonempty (Ret op)) {p : Prog Op Ret α} (hp : ∀ g, p.Reaches g → ∀ e ∈ g, A e.1) {t : τ}
    {h : List (Event Op' Ret')} {s : σ} (hs : J h s) :
    Always I (p.interp f t) (fun h' _ s' => J h' s') h s := by
  induction p generalizing t h s with
  | ret a => exact always_pure (hJ h s hs) hs
  | call op k ih =>
    obtain ⟨r₀⟩ := hret op
    have hop : A op := hp [⟨op, r₀⟩] (.call r₀ (.start _)) _ List.mem_cons_self
    refine always_bind (hf op t h s hop hs) fun h' r s' hs' => ih r.1 (fun g hg e he => ?_) hs'
    exact hp _ (.call r.1 hg) e (List.mem_cons_of_mem _ he)
  | hang => exact always_hang (hJ h s hs)

/-- Under a handler without a state, a sequence keeps what each part does. -/
theorem always_interp_bind {ρ : Type} {f : Handler Op Ret Unit σ Op' Ret'}
    {m : StateT ρ (Prog Op Ret) α} {k : α → StateT ρ (Prog Op Ret) β} {r : ρ}
    {I : List (Event Op' Ret') → Prop} {Q : List (Event Op' Ret') → α × ρ → σ → Prop}
    {Q' : List (Event Op' Ret') → β × ρ → σ → Prop} {h : List (Event Op' Ret')} {s : σ}
    (hm : Always I ((m r).interp f ()) Q h s)
    (hk : ∀ h' a r' s', Q h' (a, r') s' → Always I ((k a r').interp f ()) Q' h' s') :
    Always I (((m >>= k) r).interp f ()) Q' h s := by
  change Always I ((Prog.bind (m r) fun out => k out.1 out.2).interp f ()) Q' h s
  rw [interp_bind]
  exact always_bind hm fun h' out s' => hk h' out.1 out.2 s'

end Handlers

end Interaction
