/-
Programs that take something and give it back.

`w e` says what an event `e` takes, in an ordered group; what it gives back counts negative.
`Custody w b m Q` says that a run of `m` that begins with `b` in hand never gives back what it does
not have, whether it finishes or not, and that `Q` holds of its result and of what it is left with.
The rules are those of a program logic in which what is in hand is the only state:

* `custody_iff` — what the judgement says about runs;
* `custody_pure`, `custody_call`, `custody_bind`, … — one rule for each construct;
* `Custody.frame` — what is in hand besides does no harm, and is left alone;
* `custody_interp` — a handler that takes for an operation what the operation does changes nothing.
-/
import LibFuji.Interaction

namespace Interaction

variable {Op : Type} {Ret : Op → Type} {σ α β : Type} {G : Type} [AddCommGroup G]

/-- What is taken by a history, less what is given back. -/
def takings (w : Event Op Ret → G) (h : List (Event Op Ret)) : G := (h.map w).sum

section Takings

variable {w : Event Op Ret → G}

@[simp] theorem takings_nil : takings w [] = 0 := rfl

@[simp] theorem takings_cons (e : Event Op Ret) (h : List (Event Op Ret)) :
    takings w (e :: h) = w e + takings w h := by
  simp [takings]

end Takings

variable [PartialOrder G]

/-- A run has come through every part of its history. -/
theorem Prog.Reaches.of_prefix {p : Prog Op Ret α} {h h₁ : List (Event Op Ret)}
    (hreach : p.Reaches h) (hpre : h₁ <+: h) : p.Reaches h₁ := by
  induction hreach generalizing h₁ with
  | start p =>
    rw [List.prefix_nil.mp hpre]
    exact .start _
  | call r _ ih =>
    rcases List.prefix_cons_iff.mp hpre with rfl | ⟨t, rfl, hpre'⟩
    · exact .start _
    · exact .call r (ih hpre')

/-- With `b` in hand, `p` never gives back what it does not have, and ends as `Q` demands of its
result and of what it is left with. -/
def Prog.custody (w : Event Op Ret → G) (Q : α → G → Prop) : Prog Op Ret α → G → Prop
  | ret a, b => 0 ≤ b ∧ Q a b
  | call op k, b => 0 ≤ b ∧ ∀ r, (k r).custody w Q (b + w ⟨op, r⟩)
  | hang, b => 0 ≤ b

/-- `Prog.custody` of `m`, from any state. -/
def Custody (w : Event Op Ret → G) (b : G) (m : StateT σ (Prog Op Ret) α) (Q : α → G → Prop) :
    Prop :=
  ∀ s, (m s).custody w (fun r => Q r.1) b

/-- `m` gives back what it has in hand, and what it takes. -/
abbrev Settles (w : Event Op Ret → G) (b : G) (m : StateT σ (Prog Op Ret) α) : Prop :=
  Custody w b m fun _ c => c = 0

namespace Prog

variable {w : Event Op Ret → G} {Q Q' : α → G → Prop} {b : G} {p : Prog Op Ret α}

theorem custody.nonneg (hp : p.custody w Q b) : 0 ≤ b := by
  cases p with
  | ret a => exact hp.1
  | call op k => exact hp.1
  | hang => exact hp

theorem custody.mono (hp : p.custody w Q b) (hQ : ∀ a c, 0 ≤ c → Q a c → Q' a c) :
    p.custody w Q' b := by
  induction p generalizing b with
  | ret a => exact ⟨hp.1, hQ a b hp.1 hp.2⟩
  | call op k ih => exact ⟨hp.1, fun r => ih r (hp.2 r)⟩
  | hang => exact hp

theorem custody_bind {R : β → G → Prop} {f : α → Prog Op Ret β} (hp : p.custody w Q b)
    (hf : ∀ a c, Q a c → (f a).custody w R c) : (p.bind f).custody w R b := by
  induction p generalizing b with
  | ret a => exact hf a b hp.2
  | call op k ih => exact ⟨hp.1, fun r => ih r (hp.2 r)⟩
  | hang => exact hp

/-- What the judgement says about runs. -/
theorem custody_iff : p.custody w Q b ↔
    (∀ h, p.Reaches h → 0 ≤ b + takings w h) ∧ ∀ h a, Runs p h a → Q a (b + takings w h) := by
  induction p generalizing b with
  | ret a =>
    constructor
    · rintro ⟨hb, hQ⟩
      constructor
      · rintro _ ⟨⟩
        rwa [takings_nil, add_zero]
      · rintro _ _ ⟨⟩
        rwa [takings_nil, add_zero]
    · rintro ⟨hreach, hrun⟩
      have hb := hreach [] (.start _)
      have hQ := hrun [] a (.ret a)
      rw [takings_nil, add_zero] at hb hQ
      exact ⟨hb, hQ⟩
  | call op k ih =>
    constructor
    · rintro ⟨hb, hk⟩
      constructor
      · rintro _ (_ | ⟨r, hreach⟩)
        · rwa [takings_nil, add_zero]
        · rw [takings_cons, ← add_assoc]
          exact ((ih r).mp (hk r)).1 _ hreach
      · rintro _ a (_ | ⟨r, hrun⟩)
        rw [takings_cons, ← add_assoc]
        exact ((ih r).mp (hk r)).2 _ a hrun
    · rintro ⟨hreach, hrun⟩
      have hb := hreach [] (.start _)
      rw [takings_nil, add_zero] at hb
      refine ⟨hb, fun r => (ih r).mpr ⟨fun h hr => ?_, fun h a hr => ?_⟩⟩
      · have hnext := hreach _ (.call r hr)
        rwa [takings_cons, ← add_assoc] at hnext
      · have hnext := hrun _ a (.call r hr)
        rwa [takings_cons, ← add_assoc] at hnext
  | hang =>
    constructor
    · intro hb
      refine ⟨fun h hreach => ?_, fun h a hrun => ?_⟩
      · cases hreach
        rwa [takings_nil, add_zero]
      · cases hrun
    · rintro ⟨hreach, -⟩
      have hb := hreach [] (.start _)
      rwa [takings_nil, add_zero] at hb

theorem custody.frame [IsOrderedAddMonoid G] {c : G} (hp : p.custody w Q b) (hc : 0 ≤ c) :
    p.custody w (fun a d => Q a (d - c)) (b + c) := by
  induction p generalizing b with
  | ret a =>
    refine ⟨add_nonneg hp.1 hc, ?_⟩
    change Q a (b + c - c)
    rw [add_sub_cancel_right]
    exact hp.2
  | call op k ih =>
    refine ⟨add_nonneg hp.1 hc, fun r => ?_⟩
    rw [add_right_comm]
    exact ih r (hp.2 r)
  | hang => exact add_nonneg hp hc

end Prog

section Rules

variable {w : Event Op Ret → G} {b : G} {m m' : StateT σ (Prog Op Ret) α} {Q Q' : α → G → Prop}

/-- **What the judgement says about runs**, finished or not. -/
theorem custody_iff : Custody w b m Q ↔
    (∀ s h, Reaches m s h → 0 ≤ b + takings w h) ∧
      ∀ s h a s', Exec m s h a s' → Q a (b + takings w h) := by
  simp only [Custody, Prog.custody_iff, forall_and, Prod.forall]
  rfl

theorem Custody.mono (hm : Custody w b m Q) (hQ : ∀ a c, 0 ≤ c → Q a c → Q' a c) :
    Custody w b m Q' :=
  fun s => (hm s).mono fun r c => hQ r.1 c

theorem custody_pure {a : α} (hb : 0 ≤ b) (hQ : Q a b) :
    Custody w b (pure a : StateT σ (Prog Op Ret) α) Q := fun _ => ⟨hb, hQ⟩

theorem custody_hang (hb : 0 ≤ b) : Custody w b (hang : StateT σ (Prog Op Ret) α) Q := fun _ => hb

theorem custody_call {op : Op} {Q : Ret op → G → Prop} (hb : 0 ≤ b)
    (hop : ∀ r, 0 ≤ b + w ⟨op, r⟩ ∧ Q r (b + w ⟨op, r⟩)) :
    Custody w b (call op : StateT σ (Prog Op Ret) (Ret op)) Q := fun _ => ⟨hb, hop⟩

theorem custody_bind {f : α → StateT σ (Prog Op Ret) β} {R : β → G → Prop} (hm : Custody w b m Q)
    (hf : ∀ a c, Q a c → Custody w c (f a) R) : Custody w b (m >>= f) R :=
  fun s => Prog.custody_bind (hm s) fun r c hQ => hf r.1 c hQ r.2

theorem custody_call_bind {op : Op} {f : Ret op → StateT σ (Prog Op Ret) α} (hb : 0 ≤ b)
    (hf : ∀ r, Custody w (b + w ⟨op, r⟩) (f r) Q) : Custody w b (call op >>= f) Q :=
  fun s => ⟨hb, fun r => hf r s⟩

/-- An operation that takes nothing. -/
theorem custody_free_bind {op : Op} {f : Ret op → StateT σ (Prog Op Ret) α} (hb : 0 ≤ b)
    (hop : ∀ r, w ⟨op, r⟩ = 0) (hf : ∀ r, Custody w b (f r) Q) : Custody w b (call op >>= f) Q := by
  refine custody_call_bind hb fun r => ?_
  rw [hop, add_zero]
  exact hf r

theorem custody_get_bind {f : σ → StateT σ (Prog Op Ret) α} (hf : ∀ s, Custody w b (f s) Q) :
    Custody w b (get >>= f) Q := fun s => hf s s

theorem custody_modify_bind {g : σ → σ} {f : PUnit → StateT σ (Prog Op Ret) α}
    (hf : Custody w b (f ⟨⟩) Q) : Custody w b (modify g >>= f) Q := fun s => hf (g s)

theorem custody_ite {c : Prop} [Decidable c] (hm : Custody w b m Q) (hm' : Custody w b m' Q) :
    Custody w b (if c then m else m') Q := by
  by_cases hc : c
  · rwa [if_pos hc]
  · rwa [if_neg hc]

/-- A run that takes nothing leaves everything as it is. -/
theorem custody_of_issues {A : Op → Prop} (hm : Issues A m) (hA : ∀ op r, A op → w ⟨op, r⟩ = 0)
    (hb : 0 ≤ b) (hQ : ∀ a, Q a b) : Custody w b m Q := by
  have htakings {s : σ} {h : List (Event Op Ret)} (hreach : Reaches m s h) :
      b + takings w h = b := by
    rw [takings, List.sum_eq_zero, add_zero]
    intro x hx
    obtain ⟨e, he, rfl⟩ := List.mem_map.mp hx
    exact hA e.1 e.2 (hm s h hreach e he)
  refine custody_iff.mpr ⟨fun s h hreach => (htakings hreach).symm ▸ hb, fun s h a s' hrun => ?_⟩
  rw [htakings hrun.reaches]
  exact hQ a

variable [IsOrderedAddMonoid G]

/-- What is in hand besides does no harm, and is left alone. -/
theorem Custody.frame {c : G} (hm : Custody w b m Q) (hc : 0 ≤ c) :
    Custody w (b + c) m fun a d => Q a (d - c) :=
  fun s => (hm s).frame hc

/-- A part that settles what it takes. -/
theorem Settles.bind {f : α → StateT σ (Prog Op Ret) β} {R : β → G → Prop} (hm : Settles w 0 m)
    (hb : 0 ≤ b) (hf : ∀ a, Custody w b (f a) R) : Custody w b (m >>= f) R := by
  have hframe := hm.frame hb
  rw [zero_add] at hframe
  refine custody_bind hframe fun a c hc => ?_
  rw [sub_eq_zero.mp hc]
  exact hf a

end Rules

section Handlers

variable {Op' : Type} {Ret' : Op' → Type} {τ ρ : Type} {w : Event Op Ret → G}
  {w' : Event Op' Ret' → G} {f : Handler Op Ret τ ρ Op' Ret'} {Q : α → G → Prop} {b : G}

/-- **A handler that takes for an operation what the operation does changes nothing.** -/
theorem custody_interp
    (hf : ∀ op t b, 0 ≤ b → (∀ r, 0 ≤ b + w ⟨op, r⟩) →
      Custody w' b (f op t) fun r c => c = b + w ⟨op, r.1⟩)
    {p : Prog Op Ret α} (hp : p.custody w Q b) (t : τ) : Custody w' b (p.interp f t) Q := by
  induction p generalizing b t with
  | ret a => exact custody_pure hp.1 hp.2
  | call op k ih =>
    refine custody_bind (hf op t b hp.1 fun r => (hp.2 r).nonneg) fun r c hc => ?_
    rw [hc]
    exact ih r.1 (hp.2 r.1) r.2
  | hang => exact custody_hang hp

/-- Under a handler that gives back what it takes, any program does. -/
theorem settles_interp [IsOrderedAddMonoid G] (hf : ∀ op t, Settles w' 0 (f op t))
    {p : Prog Op Ret α} (t : τ) : Settles w' 0 (p.interp f t) := by
  induction p generalizing t with
  | ret a => exact custody_pure le_rfl rfl
  | call op k ih => exact (hf op t).bind le_rfl fun r => ih r.1 r.2
  | hang => exact custody_hang le_rfl

end Handlers

end Interaction
