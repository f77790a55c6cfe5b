/-
Fixed-width positional numerals and little-endian byte strings.

`leDigits b k v` writes `v` in base `b` with exactly `k` digits, least
significant first; it is the inverse of Mathlib's `Nat.ofDigits` on digit lists
of length `k`:

* `ofDigits_leDigits` — reading back loses only what does not fit `k` digits;
* `leDigits_ofDigits` — every list of `k` digits is written by some number.

With base 256 the digits are bytes (`leBytes`, `leNat`), and `readLe` reads such
a number at an offset of a byte string, failing when it does not lie inside.
`readLe_record` and `readLe_flatMap` say what is read from an array of equally wide records
or numbers.
-/
import Mathlib

namespace ByteCodec

/-- The `k` lowest base-`b` digits of `v`, least significant first. -/
def leDigits (b : ℕ) : ℕ → ℕ → List ℕ
  | 0, _ => []
  | k + 1, v => v % b :: leDigits b k (v / b)

@[simp] theorem leDigits_length (b k v : ℕ) : (leDigits b k v).length = k := by
  induction k generalizing v with
  | zero => rfl
  | succ k ih => rw [leDigits, List.length_cons, ih]

theorem leDigits_lt {b : ℕ} (hb : 0 < b) (k v : ℕ) : ∀ d ∈ leDigits b k v, d < b := by
  induction k generalizing v with
  | zero => intro d hd; simp [leDigits] at hd
  | succ k ih =>
    intro d hd
    rw [leDigits, List.mem_cons] at hd
    rcases hd with rfl | hd
    · exact Nat.mod_lt _ hb
    · exact ih (v / b) d hd

theorem ofDigits_leDigits (b k v : ℕ) : Nat.ofDigits b (leDigits b k v) = v % b ^ k := by
  induction k generalizing v with
  | zero => simp [leDigits, Nat.mod_one]
  | succ k ih =>
    rw [leDigits, Nat.ofDigits_cons, ih, pow_succ', Nat.mod_mul]

theorem leDigits_ofDigits {b : ℕ} (hb : 0 < b) : ∀ {L : List ℕ}, (∀ d ∈ L, d < b) →
    leDigits b L.length (Nat.ofDigits b L) = L := by
  intro L
  induction L with
  | nil => intro _; rfl
  | cons d L ih =>
    intro h
    have hd : d < b := h d (List.mem_cons_self ..)
    have hL : ∀ x ∈ L, x < b := fun x hx => h x (List.mem_cons_of_mem _ hx)
    rw [List.length_cons, leDigits, Nat.ofDigits_cons]
    congr 1
    · rw [Nat.add_mul_mod_self_left, Nat.mod_eq_of_lt hd]
    · rw [Nat.add_mul_div_left _ _ hb, Nat.div_eq_of_lt hd, Nat.zero_add, ih hL]

/-- Accumulating digits most significant first, as a loop does. -/
theorem foldl_digits (b : ℕ) (L : List ℕ) :
    L.foldl (fun acc d => acc * b + d) 0 = Nat.ofDigits b L.reverse := by
  suffices H : ∀ acc, L.foldl (fun acc d => acc * b + d) acc
      = Nat.ofDigits b L.reverse + b ^ L.length * acc by
    simpa using H 0
  induction L with
  | nil => intro acc; simp
  | cons d L ih =>
    intro acc
    rw [List.foldl_cons, ih, List.reverse_cons, Nat.ofDigits_append, List.length_reverse,
      Nat.ofDigits_singleton, List.length_cons]
    ring

/-! ### Byte strings -/

/-- The `k` little-endian bytes of `v`. -/
def leBytes (k v : ℕ) : List UInt8 := (leDigits 256 k v).map UInt8.ofNat

/-- The number a little-endian byte string stands for. -/
def leNat (bs : List UInt8) : ℕ := Nat.ofDigits 256 (bs.map UInt8.toNat)

@[simp] theorem leBytes_length (k v : ℕ) : (leBytes k v).length = k := by simp [leBytes]

@[simp] theorem flatMap_leBytes_length (k : ℕ) (vs : List ℕ) :
    (vs.flatMap (leBytes k)).length = k * vs.length := by
  induction vs with
  | nil => simp
  | cons v vs ih =>
    rw [List.flatMap_cons, List.length_append, ih, leBytes_length, List.length_cons]
    ring

theorem map_toNat_leBytes (k v : ℕ) : (leBytes k v).map UInt8.toNat = leDigits 256 k v := by
  have h : ∀ d ∈ leDigits 256 k v, (UInt8.toNat ∘ UInt8.ofNat) d = id d := fun d hd =>
    UInt8.toNat_ofNat_of_lt' (leDigits_lt (by norm_num) k v d hd)
  rw [leBytes, List.map_map, List.map_congr_left h, List.map_id]

theorem leNat_lt (bs : List UInt8) : leNat bs < 256 ^ bs.length := by
  have hlt : Nat.ofDigits 256 (bs.map UInt8.toNat) < 256 ^ (bs.map UInt8.toNat).length := by
    refine Nat.ofDigits_lt_base_pow_length (by decide) fun d hd => ?_
    obtain ⟨b, -, rfl⟩ := List.mem_map.mp hd
    exact b.toNat_lt
  rwa [List.length_map] at hlt

theorem leNat_append (bs cs : List UInt8) :
    leNat (bs ++ cs) = leNat bs + 256 ^ bs.length * leNat cs := by
  rw [leNat, leNat, leNat, List.map_append, Nat.ofDigits_append, List.length_map]

theorem leNat_leBytes (k v : ℕ) : leNat (leBytes k v) = v % 256 ^ k := by
  rw [leNat, map_toNat_leBytes, ofDigits_leDigits]

theorem leBytes_leNat (bs : List UInt8) : leBytes bs.length (leNat bs) = bs := by
  have hlt : ∀ d ∈ bs.map UInt8.toNat, d < 256 := by
    intro d hd
    obtain ⟨b, -, rfl⟩ := List.mem_map.mp hd
    exact b.toNat_lt
  have hdigits := leDigits_ofDigits (by norm_num) hlt
  rw [List.length_map] at hdigits
  rw [leBytes, leNat, hdigits, List.map_map]
  exact (List.map_congr_left fun b _ => UInt8.ofNat_toNat).trans (List.map_id bs)

/-- A byte string that is long enough is made of records, if every string of their length is one. -/
theorem exists_flatMap {α : Type*} {enc : α → List UInt8} {k : ℕ}
    (henc : ∀ bs : List UInt8, bs.length = k → ∃ x, enc x = bs) (n : ℕ) {bs : List UInt8}
    (hlen : k * n ≤ bs.length) : ∃ xs : List α, xs.length = n ∧ ∃ r, bs = xs.flatMap enc ++ r := by
  induction n generalizing bs with
  | zero => exact ⟨[], rfl, bs, rfl⟩
  | succ n ih =>
    rw [Nat.mul_succ] at hlen
    obtain ⟨x, hx⟩ := henc (bs.take k) (by rw [List.length_take]; omega)
    obtain ⟨xs, hxs, r, hr⟩ := ih (show k * n ≤ (bs.drop k).length by
      rw [List.length_drop]; omega)
    refine ⟨x :: xs, by rw [List.length_cons, hxs], r, ?_⟩
    rw [List.flatMap_cons, hx, List.append_assoc, ← hr, List.take_append_drop]

/-! ### Reading at an offset -/

/-- The `n`-byte number at offset `of`; `none` when it does not lie wholly inside. -/
def readLe (bs : List UInt8) (of n : ℕ) : Option ℕ :=
  if of + n ≤ bs.length then some (leNat ((bs.drop of).take n)) else none

theorem readLe_isSome {bs : List UInt8} {of n : ℕ} (h : of + n ≤ bs.length) :
    readLe bs of n = some (leNat ((bs.drop of).take n)) := if_pos h

theorem readLe_eq_some {bs : List UInt8} {of n v : ℕ} :
    readLe bs of n = some v ↔ of + n ≤ bs.length ∧ leNat ((bs.drop of).take n) = v := by
  rw [readLe]
  split <;> simp_all

theorem readLe_mid (l m r : List UInt8) :
    readLe (l ++ m ++ r) l.length m.length = some (leNat m) := by
  rw [readLe_isSome (by simp), List.append_assoc, List.drop_left, List.take_left]

/-- Reading a field `m` of the `i`-th of an array of `k`-byte records that follows `l`. -/
theorem readLe_record {α : Type*} {enc : α → List UInt8} {k : ℕ}
    (henc : ∀ x, (enc x).length = k) (l r : List UInt8) {xs : List α} {i : ℕ}
    (hi : i < xs.length) {p m q : List UInt8} (hrec : enc xs[i] = p ++ m ++ q) :
    readLe (l ++ xs.flatMap enc ++ r) (l.length + k * i + p.length) m.length
      = some (leNat m) := by
  have hcut : xs.flatMap enc
      = (xs.take i).flatMap enc ++ (p ++ m ++ q ++ (xs.drop (i + 1)).flatMap enc) := by
    rw [← hrec, ← List.flatMap_cons, ← List.drop_eq_getElem_cons hi, ← List.flatMap_append,
      List.take_append_drop]
  have hsplit : l ++ xs.flatMap enc ++ r = (l ++ (xs.take i).flatMap enc ++ p) ++ m
      ++ (q ++ (xs.drop (i + 1)).flatMap enc ++ r) := by
    rw [hcut]
    simp only [List.append_assoc]
  have hlen : l.length + k * i + p.length = (l ++ (xs.take i).flatMap enc ++ p).length := by
    simp only [List.length_append, List.length_flatMap, henc, List.map_const', List.sum_replicate,
      List.length_take, min_eq_left hi.le, smul_eq_mul, mul_comm]
  rw [hsplit, hlen, readLe_mid]

/-- Reading the `i`-th of an array of `k`-byte numbers that follows `l`. -/
theorem readLe_flatMap (k : ℕ) (l r : List UInt8) {vs : List ℕ} {i v : ℕ}
    (hv : vs[i]? = some v) :
    readLe (l ++ vs.flatMap (leBytes k) ++ r) (l.length + k * i) k = some (v % 256 ^ k) := by
  obtain ⟨hi, rfl⟩ := List.getElem?_eq_some_iff.mp hv
  have h := readLe_record (leBytes_length k) l r hi (p := []) (m := leBytes k vs[i]) (q := [])
    (by simp)
  rwa [leBytes_length, leNat_leBytes, List.length_nil, add_zero] at h

end ByteCodec
