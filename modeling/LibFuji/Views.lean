/-
Views of runs with a handler.

A handler answers each operation of a program by a history of its own.  A view shows a part of such
a history, as events of the program; if it shows of each answer just the operation with its result,
the handler is mirrored by the view (`Mirrors`), and what the view shows of a run is a run of the
program (`Mirrors.runs`, `Mirrors.reached`).

* `Mirrors.always` — what the program keeps, the view shows;
* `issues_interp` — what the handler issues for the operations of the program is all that is issued;
* `exec_seen`, `reaches_seen` — the view of a part of a program that asks one thing;
* `IssuesAt` — what a program issues from one state;
* `embed` — a program over a part of the state, whose operations are passed on one by one, and what
  its runs show (`exec_embed`, `reaches_embed`, `embed_issues`).
-/
import LibFuji.Interaction

namespace Interaction

variable {Op : Type} {Ret : Op → Type} {Op' : Type} {Ret' : Op' → Type} {τ σ α : Type}

/-- Under the view `v`, the history of a handler shows just the operation it answers, once it has
done so. -/
structure Mirrors (v : Event Op' Ret' → Option (Event Op Ret)) (A : Op → Prop)
    (f : Handler Op Ret τ σ Op' Ret') : Prop where
  exec : ∀ op t s h r s', A op → Exec (f op t) s h r s' → h.filterMap v = [⟨op, r.1⟩]
  reaches : ∀ op t s h, A op → Reaches (f op t) s h →
    h.filterMap v = [] ∨ ∃ r, h.filterMap v = [⟨op, r⟩]

section Mirrors

variable {v : Event Op' Ret' → Option (Event Op Ret)} {A : Op → Prop}
  {f : Handler Op Ret τ σ Op' Ret'} {p : Prog Op Ret α} {t : τ} {s s' : σ}
  {h : List (Event Op' Ret')} {a : α}

/-- What a run shows is a run of the program. -/
theorem Mirrors.runs (hf : Mirrors v A f) (hp : ∀ g, p.Reaches g → ∀ e ∈ g, A e.1)
    (hrun : Exec (p.interp f t) s h a s') : p.Runs (h.filterMap v) a := by
  induction p generalizing t s h with
  | ret b =>
    cases hrun
    exact .ret _
  | call op k ih =>
    obtain ⟨h₁, r, s₁, h₂, rfl, hop, hrest⟩ := exec_of_bind hrun
    have hA : A op := hp [⟨op, r.1⟩] (.call r.1 (.start _)) _ List.mem_cons_self
    rw [List.filterMap_append, hf.exec op t s h₁ r s₁ hA hop]
    refine .call r.1 (ih r.1 (fun g hg e he => ?_) hrest)
    exact hp _ (.call r.1 hg) e (List.mem_cons_of_mem _ he)
  | hang => cases hrun

theorem Mirrors.reached (hf : Mirrors v A f) (hret : ∀ op, Nonempty (Ret op))
    (hp : ∀ g, p.Reaches g → ∀ e ∈ g, A e.1) (hreach : Reaches (p.interp f t) s h) :
    p.Reaches (h.filterMap v) := by
  induction p generalizing t s h with
  | ret b =>
    cases hreach
    exact .start _
  | call op k ih =>
    obtain ⟨r₀⟩ := hret op
    have hA : A op := hp [⟨op, r₀⟩] (.call r₀ (.start _)) _ List.mem_cons_self
    rcases reaches_of_bind hreach with hreach | ⟨h₁, r, s₁, h₂, rfl, hop, hrest⟩
    · rcases hf.reaches op t s h hA hreach with hnil | ⟨r, hone⟩
      · rw [hnil]
        exact .start _
      · rw [hone]
        exact .call r (.start _)
    · rw [List.filterMap_append, hf.exec op t s h₁ r s₁ hA hop]
      refine .call r.1 (ih r.1 (fun g hg e he => ?_) hrest)
      exact hp _ (.call r.1 hg) e (List.mem_cons_of_mem _ he)
  | hang =>
    cases hreach
    exact .start _

/-- **What a program keeps, a run with the handler shows.** -/
theorem Mirrors.always {ρ : Type} {m : StateT ρ (Prog Op Ret) α} {r : ρ}
    {I : List (Event Op Ret) → Prop} {Q : List (Event Op Ret) → α → ρ → Prop}
    {I' : List (Event Op' Ret') → Prop} {Q' : List (Event Op' Ret') → α × ρ → σ → Prop}
    (hf : Mirrors v A f) (hret : ∀ op, Nonempty (Ret op)) (hA : Issues A m)
    (hm : Always I m Q [] r) (hI : ∀ t, I (t.filterMap v) → I' (h ++ t))
    (hQ : ∀ t a r' s', Q (t.filterMap v) a r' → Q' (h ++ t) (a, r') s') :
    Always I' ((m r).interp f t) Q' h s := by
  constructor
  · intro h' hreach
    exact hI h' (hm.reaches _ (hf.reached hret (hA r) hreach))
  · rintro h' ⟨a, r'⟩ s' hrun
    exact hQ h' a r' s' (hm.exec _ a r' (hf.runs (hA r) hrun))

/-- A program under a handler issues what the handler issues for its operations. -/
theorem issues_interp {B : Op' → Prop} (hf : ∀ op t, A op → Issues B (f op t))
    (hret : ∀ op, Nonempty (Ret op)) (hp : ∀ g, p.Reaches g → ∀ e ∈ g, A e.1) :
    Issues B (p.interp f t) := by
  induction p generalizing t with
  | ret a => exact issues_pure a
  | call op k ih =>
    obtain ⟨r₀⟩ := hret op
    have hop : A op := hp [⟨op, r₀⟩] (.call r₀ (.start _)) _ List.mem_cons_self
    refine issues_bind (hf op t hop) fun r => ih r.1 fun g hg e he => ?_
    exact hp _ (.call r.1 hg) e (List.mem_cons_of_mem _ he)
  | hang => exact issues_hang

/-- A view does not show what a program does. -/
def Unseen (v : Event Op' Ret' → Option (Event Op Ret)) (m : StateT σ (Prog Op' Ret') α) : Prop :=
  Issues (fun op => ∀ r, v ⟨op, r⟩ = none) m

theorem Unseen.filterMap {m : StateT σ (Prog Op' Ret') α} (hm : Unseen v m)
    (hreach : Reaches m s h) : h.filterMap v = [] :=
  List.filterMap_eq_nil_iff.mpr fun e he => hm s h hreach e he e.2

section Seen

variable {β γ : Type} {m : StateT σ (Prog Op' Ret') β} {op' : Op'}
  {k : Ret' op' → StateT σ (Prog Op' Ret') γ}

/-- Of a program that asks one thing the view shows only that, -/
theorem exec_seen {c : γ} (hm : Unseen v m) (hk : ∀ r, Unseen v (k r))
    (hrun : Exec (m >>= fun _ => call op' >>= k) s h c s') :
    ∃ r s₁ t, h.filterMap v = [⟨op', r⟩].filterMap v ∧ Exec (k r) s₁ t c s' := by
  obtain ⟨h₁, b, s₁, h₂, rfl, hfirst, hrest⟩ := exec_of_bind hrun
  obtain ⟨r, h₃, rfl, hlast⟩ := exec_call_bind.mp hrest
  refine ⟨r, s₁, h₃, ?_, hlast⟩
  rw [List.filterMap_append, hm.filterMap hfirst.reaches, List.nil_append, ← List.singleton_append,
    List.filterMap_append, (hk r).filterMap hlast.reaches, List.append_nil]

/-- at any time. -/
theorem reaches_seen (hm : Unseen v m) (hk : ∀ r, Unseen v (k r))
    (hreach : Reaches (m >>= fun _ => call op' >>= k) s h) :
    h.filterMap v = [] ∨ ∃ r, h.filterMap v = [⟨op', r⟩].filterMap v := by
  rcases reaches_of_bind hreach with hreach | ⟨h₁, b, s₁, h₂, rfl, hfirst, hrest⟩
  · exact .inl (hm.filterMap hreach)
  · rw [List.filterMap_append, hm.filterMap hfirst.reaches, List.nil_append]
    rcases reaches_call_bind.mp hrest with rfl | ⟨r, h₃, rfl, hlast⟩
    · exact .inl rfl
    · refine .inr ⟨r, ?_⟩
      rw [← List.singleton_append, List.filterMap_append, (hk r).filterMap hlast, List.append_nil]

end Seen

end Mirrors

/-! ### What is issued from a state -/

/-- From the state `s`, `m` issues only operations of `A`, whether it finishes or not. -/
def IssuesAt (A : Op → Prop) (m : StateT σ (Prog Op Ret) α) (s : σ) : Prop :=
  ∀ h, Reaches m s h → ∀ e ∈ h, A e.1

section IssuesAt

variable {A : Op → Prop} {m : StateT σ (Prog Op Ret) α} {s : σ}

theorem Issues.at (hm : Issues A m) (s : σ) : IssuesAt A m s := hm s

theorem issuesAt_of_ret {a : α} {t : σ} (hm : m s = .ret (a, t)) : IssuesAt A m s := by
  intro h hreach
  rw [reaches_of_ret hm hreach]
  simp

theorem IssuesAt.map {β : Type} (hm : IssuesAt A m s) (f : α → β) : IssuesAt A (f <$> m) s := by
  have hmap : f <$> m = m >>= pure ∘ f := rfl
  rw [hmap]
  intro h hreach
  rcases reaches_of_bind hreach with hreach | ⟨h₁, a, s₁, h₂, rfl, hrun, hret⟩
  · exact hm h hreach
  · obtain rfl := reaches_of_ret rfl hret
    rw [List.append_nil]
    exact hm h₁ hrun.reaches

end IssuesAt

/-! ### Programs over a part of a state -/

/-- A handler that passes an operation on, as one of another interface. -/
def relay (ι : Op → Op') (κ : (op : Op) → Ret' (ι op) → Ret op) : Handler Op Ret Unit σ Op' Ret' :=
  fun op _ => do
    let r ← call (ι op)
    return (κ op r, ())

/-- A program over a part of the state, whose operations are passed on. -/
def embed {ρ : Type} (ι : Op → Op') (κ : (op : Op) → Ret' (ι op) → Ret op) (part : σ → ρ)
    (put : ρ → σ → σ) (m : StateT ρ (Prog Op Ret) α) : StateT σ (Prog Op' Ret') α := do
  let s ← get
  let out ← (m (part s)).interp (relay ι κ) ()
  modify (put out.2)
  return out.1

section Embed

variable {ρ : Type} {ι : Op → Op'} {κ : (op : Op) → Ret' (ι op) → Ret op} {part : σ → ρ}
  {put : ρ → σ → σ} {m : StateT ρ (Prog Op Ret) α} {v : Event Op' Ret' → Option (Event Op Ret)}
  {s s' : σ} {h : List (Event Op' Ret')} {a : α}

theorem mirrors_relay (hv : ∀ op r, v ⟨ι op, r⟩ = some ⟨op, κ op r⟩) :
    Mirrors v (fun _ => True) (relay ι κ : Handler Op Ret Unit σ Op' Ret') := by
  have hpure {γ : Type} (b : γ) : Unseen v (pure b : StateT σ (Prog Op' Ret') γ) := issues_pure b
  constructor
  · intro op t s h r s' _ hrun
    obtain ⟨r₀, h₁, rfl, hret⟩ := exec_call_bind.mp hrun
    obtain ⟨rfl, rfl, -⟩ := hret.eq_of_ret rfl
    rw [List.filterMap_cons_some (hv op r₀)]
    rfl
  · intro op t s h _ hreach
    rcases reaches_call_bind.mp hreach with rfl | ⟨r₀, h₁, rfl, hret⟩
    · exact .inl rfl
    · obtain rfl := reaches_of_ret rfl hret
      rw [List.filterMap_cons_some (hv op r₀)]
      exact .inr ⟨_, rfl⟩

theorem relay_state {p : Prog Op Ret α} {t : Unit} (hrun : Exec (p.interp (relay ι κ) t) s h a s') :
    s' = s := by
  induction p generalizing h t with
  | ret b =>
    cases hrun
    rfl
  | call op k ih =>
    obtain ⟨h₁, r, s₁, h₂, -, hop, hrest⟩ := exec_of_bind hrun
    obtain ⟨r₀, h₃, -, hret⟩ := exec_call_bind.mp hop
    obtain ⟨-, -, rfl⟩ := hret.eq_of_ret rfl
    exact ih r.1 hrest
  | hang => cases hrun

/-- What is seen of the run is a run of the program. -/
theorem exec_embed (hv : ∀ op r, v ⟨ι op, r⟩ = some ⟨op, κ op r⟩)
    (hrun : Exec (embed ι κ part put m) s h a s') :
    ∃ r', Exec m (part s) (h.filterMap v) a r' ∧ s' = put r' s := by
  obtain ⟨h₁, ⟨b, r'⟩, s₁, h₂, rfl, hinterp, hret⟩ := exec_of_bind (exec_get_bind.mp hrun)
  obtain ⟨rfl, rfl, rfl⟩ := (exec_modify_bind.mp hret).eq_of_ret rfl
  rw [List.append_nil]
  rw [relay_state hinterp]
  exact ⟨r', (mirrors_relay hv).runs (fun _ _ _ _ => trivial) hinterp, rfl⟩

theorem reaches_embed (hv : ∀ op r, v ⟨ι op, r⟩ = some ⟨op, κ op r⟩)
    (hret : ∀ op, Nonempty (Ret op)) (hreach : Reaches (embed ι κ part put m) s h) :
    Reaches m (part s) (h.filterMap v) := by
  have hinterp : Reaches ((m (part s)).interp (relay ι κ) ()) s h := by
    rcases reaches_of_bind (reaches_get_bind.mp hreach) with hreach | ⟨h₁, b, s₁, h₂, rfl, hrun, hend⟩
    · exact hreach
    · rw [reaches_of_ret rfl (reaches_modify_bind.mp hend), List.append_nil]
      exact hrun.reaches
  exact (mirrors_relay hv).reached hret (fun _ _ _ _ => trivial) hinterp

theorem embed_issues {A : Op → Prop} {B : Op' → Prop} (hm : Issues A m)
    (hret : ∀ op, Nonempty (Ret op)) (hAB : ∀ op, A op → B (ι op)) :
    Issues B (embed ι κ part put m) := by
  refine issues_bind issues_get fun s => issues_bind ?_ fun out => ?_
  · exact issues_interp (fun op _ hop => issues_bind (issues_call (hAB op hop)) fun _ => issues_pure _)
      hret (hm (part s))
  · exact issues_bind (issues_modify _) fun _ => issues_pure _

/-- What the program issues from the part of a state, is issued from the state. -/
theorem IssuesAt.embed {A : Op → Prop} {B : Op' → Prop} (hv : ∀ op r, v ⟨ι op, r⟩ = some ⟨op, κ op r⟩)
    (hret : ∀ op, Nonempty (Ret op)) (hm : IssuesAt A m (part s)) (hAB : ∀ op, A op → B (ι op)) :
    IssuesAt B (Interaction.embed ι κ part put m) s := by
  have hall : Issues (fun op' => ∃ op, op' = ι op) (Interaction.embed ι κ part put m) :=
    embed_issues (A := fun _ => True) (fun _ _ _ _ _ => trivial) hret fun op _ => ⟨op, rfl⟩
  rintro h hreach ⟨op', r⟩ he
  obtain ⟨op, hop⟩ := hall s h hreach _ he
  obtain rfl : op' = ι op := hop
  exact hAB op (hm _ (reaches_embed hv hret hreach) _ (List.mem_filterMap.mpr ⟨_, he, hv op r⟩))

/-- Every event of the run is seen, so that events can be counted as seen. -/
theorem countP_embed {p : Op → Bool} {p' : Op' → Bool} (hv : ∀ op r, v ⟨ι op, r⟩ = some ⟨op, κ op r⟩)
    (hp : ∀ op, p' (ι op) = p op) (hall : ∀ e ∈ h, ∃ op, e.1 = ι op) :
    h.countP (fun e => p' e.1) = (h.filterMap v).countP fun e => p e.1 := by
  rw [List.countP_filterMap]
  refine List.countP_congr fun e he => ?_
  obtain ⟨op', r⟩ := e
  obtain ⟨op, rfl⟩ := hall _ he
  rw [hv, Option.map_some, Option.getD_some, hp]

theorem embed_all (hret : ∀ op, Nonempty (Ret op)) :
    Issues (fun op' => ∃ op, op' = ι op) (embed ι κ part put m) :=
  embed_issues (A := fun _ => True) (fun _ _ _ _ _ => trivial) hret fun op _ => ⟨op, rfl⟩

end Embed

end Interaction
