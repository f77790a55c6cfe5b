/-
Ledgers: what events take and give back.

`w e` says how much of each resource an event `e` takes; what it gives back counts negative.
The sum over a history is its `balance`.  A history is `Covered` if nothing is given back that
has not been taken.

`Accounts bad b h` is for histories that should take `b`: they take at least that, and they take
exactly that just if none of their events is bad.  `Accounts.append` and `Accounts.release` put
the histories of the parts of a program together.
-/
import Mathlib

namespace Ledger

variable {ε ι : Type} {w : ε → ι → ℤ} {bad : ε → Prop} {b b' : ι → ℤ} {h h' : List ε}

/-- What a history has taken and not given back. -/
def balance (w : ε → ι → ℤ) (h : List ε) : ι → ℤ := (h.map w).sum

@[simp] theorem balance_nil : balance w [] = 0 := rfl

@[simp] theorem balance_cons (e : ε) (h : List ε) : balance w (e :: h) = w e + balance w h := by
  simp [balance]

@[simp] theorem balance_append (h h' : List ε) :
    balance w (h ++ h') = balance w h + balance w h' := by
  simp [balance]

theorem balance_of_zero (hw : ∀ e ∈ h, w e = 0) : balance w h = 0 := by
  refine List.sum_eq_zero fun x hx => ?_
  obtain ⟨e, he, rfl⟩ := List.mem_map.mp hx
  exact hw e he

theorem balance_nonneg (hw : ∀ e ∈ h, 0 ≤ w e) : 0 ≤ balance w h := by
  refine List.sum_nonneg fun x hx => ?_
  obtain ⟨e, he, rfl⟩ := List.mem_map.mp hx
  exact hw e he

/-- With `b` in hand, nothing is given back that is not there. -/
def Covered (w : ε → ι → ℤ) (b : ι → ℤ) (h : List ε) : Prop :=
  ∀ h₁, h₁ <+: h → 0 ≤ b + balance w h₁

theorem Covered.mono (hcov : Covered w b h) (hb : b ≤ b') : Covered w b' h :=
  fun h₁ hpre => (hcov h₁ hpre).trans (add_le_add_left hb _)

theorem Covered.append (hcov : Covered w b h) (hcov' : Covered w (b + balance w h) h') :
    Covered w b (h ++ h') := by
  rintro h₁ ⟨t, ht⟩
  rcases List.append_eq_append_iff.mp ht with ⟨u, rfl, -⟩ | ⟨u, rfl, rfl⟩
  · exact hcov h₁ (List.prefix_append h₁ u)
  · rw [balance_append, ← add_assoc]
    exact hcov' u (List.prefix_append u t)

theorem covered_nil (hb : 0 ≤ b) : Covered w b [] := by
  intro h₁ hpre
  rw [List.prefix_nil.mp hpre, balance_nil, add_zero]
  exact hb

theorem covered_cons {e : ε} (hb : 0 ≤ b) (hcov : Covered w (b + w e) h) :
    Covered w b (e :: h) := by
  intro h₁ hpre
  rcases List.prefix_cons_iff.mp hpre with rfl | ⟨t, rfl, hpre'⟩
  · rw [balance_nil, add_zero]
    exact hb
  · rw [balance_cons, ← add_assoc]
    exact hcov t hpre'

theorem covered_of_nonneg (hb : 0 ≤ b) (hw : ∀ e ∈ h, 0 ≤ w e) : Covered w b h := by
  intro h₁ hpre
  exact add_nonneg hb (balance_nonneg fun e he => hw e (hpre.subset he))

/-- A history that should take `b`: it takes no less, and takes more just if an event is bad. -/
structure Accounts (w : ε → ι → ℤ) (bad : ε → Prop) (b : ι → ℤ) (h : List ε) : Prop where
  covered : Covered w 0 h
  lost : ∃ l, 0 ≤ l ∧ balance w h = b + l ∧ (l = 0 ↔ ∀ e ∈ h, ¬ bad e)

theorem accounts_nil : Accounts w bad 0 [] :=
  ⟨covered_of_nonneg le_rfl (by simp), 0, le_rfl, by simp, by simp⟩

/-- A history that gives nothing back. -/
theorem accounts_of_nonneg {l : ι → ℤ} (hw : ∀ e ∈ h, 0 ≤ w e) (hl : 0 ≤ l)
    (hbalance : balance w h = b + l) (hbad : l = 0 ↔ ∀ e ∈ h, ¬ bad e) : Accounts w bad b h :=
  ⟨covered_of_nonneg le_rfl hw, l, hl, hbalance, hbad⟩

theorem Accounts.append (hb : 0 ≤ b) (hacc : Accounts w bad b h) (hacc' : Accounts w bad b' h') :
    Accounts w bad (b + b') (h ++ h') := by
  obtain ⟨l, hl, hbalance, hbad⟩ := hacc.lost
  obtain ⟨l', hl', hbalance', hbad'⟩ := hacc'.lost
  refine ⟨hacc.covered.append (hacc'.covered.mono ?_), l + l', add_nonneg hl hl', ?_, ?_⟩
  · rw [zero_add, hbalance]
    exact add_nonneg hb hl
  · rw [balance_append, hbalance, hbalance', add_add_add_comm]
  · rw [add_eq_zero_iff_of_nonneg hl hl', hbad, hbad', List.forall_mem_append]

/-- A part `b` of what has been taken is given back. -/
theorem Accounts.release (hb' : 0 ≤ b') (hacc : Accounts w bad (b + b') h) (hcov : Covered w b h')
    (hbalance : balance w h' = -b) (hgood : ∀ e ∈ h', ¬ bad e) : Accounts w bad b' (h ++ h') := by
  obtain ⟨l, hl, hbalance', hbad⟩ := hacc.lost
  refine ⟨hacc.covered.append (hcov.mono ?_), l, hl, ?_, ?_⟩
  · rw [zero_add, hbalance', add_assoc]
    exact le_add_of_nonneg_right (add_nonneg hb' hl)
  · rw [balance_append, hbalance, hbalance']
    abel
  · rw [hbad, List.forall_mem_append]
    exact (and_iff_left hgood).symm

/-- Nothing is left over just if no event is bad. -/
theorem Accounts.balance_eq_zero_iff (hacc : Accounts w bad 0 h) :
    balance w h = 0 ↔ ∀ e ∈ h, ¬ bad e := by
  obtain ⟨l, -, hbalance, hbad⟩ := hacc.lost
  rw [hbalance, zero_add, hbad]

end Ledger
