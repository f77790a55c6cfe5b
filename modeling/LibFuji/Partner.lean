/-
Programs and the other party of their dialogue.

The environment of a program is often a party with a state of its own: a device that keeps what it
has been sent, a file that keeps what has been written.  A `Partner` says which answers such a party
gives in a state, and what an answered operation makes of the state.

* `Serves` — the answers of a history are those of the partner, and `after` is the state it is in
  then;
* `Against` — every finished run that the partner serves ends with it, the result and the state of
  the program as demanded; its rules (`against_bind`, `against_call`, …) follow the program.
-/
import LibFuji.Interaction

namespace Interaction

variable {Op : Type} {Ret : Op → Type} {γ σ α β : Type}

/-- A party that answers operations. -/
structure Partner (Op : Type) (Ret : Op → Type) (γ : Type) where
  Answers : γ → Event Op Ret → Prop
  next : γ → Event Op Ret → γ

namespace Partner

variable (p : Partner Op Ret γ)

/-- The answers of a history are the partner's, from the state `c` on. -/
def Serves : γ → List (Event Op Ret) → Prop
  | _, [] => True
  | c, e :: h => p.Answers c e ∧ Serves (p.next c e) h

/-- The partner behind a history. -/
def after (c : γ) (h : List (Event Op Ret)) : γ := h.foldl p.next c

/-- Every finished run of `m` from `s` that the partner serves from `c` on ends as `Q` demands. -/
def Against (m : StateT σ (Prog Op Ret) α) (Q : γ → α → σ → Prop) (c : γ) (s : σ) : Prop :=
  ∀ h a s', Exec m s h a s' → p.Serves c h → Q (p.after c h) a s'

instance decidableServes [∀ c e, Decidable (p.Answers c e)] :
    ∀ c h, Decidable (p.Serves c h)
  | _, [] => inferInstanceAs (Decidable True)
  | c, e :: h => @instDecidableAnd _ _ _ (decidableServes (p.next c e) h)

variable {p} {c : γ} {s s' : σ} {h h' : List (Event Op Ret)}

theorem serves_append :
    p.Serves c (h ++ h') ↔ p.Serves c h ∧ p.Serves (p.after c h) h' := by
  induction h generalizing c with
  | nil => exact ⟨fun hserves => ⟨trivial, hserves⟩, And.right⟩
  | cons e h ih =>
    rw [List.cons_append, Serves, Serves, ih, and_assoc]
    rfl

theorem after_append : p.after c (h ++ h') = p.after (p.after c h) h' := List.foldl_append

section Rules

variable {m : StateT σ (Prog Op Ret) α} {Q Q' : γ → α → σ → Prop}

theorem Against.mono (hm : p.Against m Q c s) (hQ : ∀ c a s, Q c a s → Q' c a s) :
    p.Against m Q' c s :=
  fun h a s' hrun hserves => hQ _ _ _ (hm h a s' hrun hserves)

theorem against_of_ret {a : α} (hm : m s = .ret (a, s')) (hQ : Q c a s') : p.Against m Q c s := by
  intro h b s'' hrun _
  obtain ⟨rfl, rfl, rfl⟩ := hrun.eq_of_ret hm
  exact hQ

theorem against_pure {a : α} (hQ : Q c a s) :
    p.Against (pure a : StateT σ (Prog Op Ret) α) Q c s :=
  against_of_ret rfl hQ

theorem against_hang : p.Against (hang : StateT σ (Prog Op Ret) α) Q c s := by
  rintro h a s' ⟨⟩

theorem against_bind {f : α → StateT σ (Prog Op Ret) β} {R : γ → β → σ → Prop}
    (hm : p.Against m (fun c a s => p.Against (f a) R c s) c s) : p.Against (m >>= f) R c s := by
  intro h b s' hrun hserves
  obtain ⟨h₁, a, s₁, h₂, rfl, hrun₁, hrun₂⟩ := exec_of_bind hrun
  obtain ⟨hserves₁, hserves₂⟩ := serves_append.mp hserves
  -- the rest of the program talks to the partner that the first part has left behind
  rw [after_append]
  exact hm h₁ a s₁ hrun₁ hserves₁ h₂ b s' hrun₂ hserves₂

/-- The partner answers, and is changed. -/
theorem against_call_bind {op : Op} {f : Ret op → StateT σ (Prog Op Ret) β} {R : γ → β → σ → Prop}
    (hf : ∀ r, p.Answers c ⟨op, r⟩ → p.Against (f r) R (p.next c ⟨op, r⟩) s) :
    p.Against (call op >>= f) R c s := by
  intro h b s' hrun hserves
  obtain ⟨r, h', rfl, hrun'⟩ := exec_call_bind.mp hrun
  exact hf r hserves.1 h' b s' hrun' hserves.2

/-- An operation that leaves the partner as it is. -/
theorem against_pass {op : Op} {f : Ret op → StateT σ (Prog Op Ret) β} {R : γ → β → σ → Prop}
    (hpass : ∀ r, p.next c ⟨op, r⟩ = c)
    (hf : ∀ r, p.Answers c ⟨op, r⟩ → p.Against (f r) R c s) : p.Against (call op >>= f) R c s :=
  against_call_bind fun r hr => (hpass r).symm ▸ hf r hr

theorem against_get_bind {f : σ → StateT σ (Prog Op Ret) β} {R : γ → β → σ → Prop} :
    p.Against (get >>= f) R c s ↔ p.Against (f s) R c s := Iff.rfl

theorem against_ite {b : Prop} [Decidable b] {m' : StateT σ (Prog Op Ret) α}
    (hm : b → p.Against m Q c s) (hm' : ¬ b → p.Against m' Q c s) :
    p.Against (if b then m else m') Q c s := by
  by_cases hb : b
  · rw [if_pos hb]
    exact hm hb
  · rw [if_neg hb]
    exact hm' hb

end Rules

end Partner

end Interaction
