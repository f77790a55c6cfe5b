/-
The descriptors of discovery (`fuji_discover_thread` in `discovery.c`).

`Leaks` lists the answers behind which a function returns without closing a descriptor that it
holds: failures of calls between `socket` or `accept` and the return, an invitation without a
value, and the descriptor 0 where it is taken for an error or for no descriptor.

`fujiDiscoverThread_closed_iff`: when discovery returns, every descriptor has been closed, and
none twice, just if none of these answers was given.
-/
import LibFuji.Discovery
import LibFuji.Ledger

namespace Fuji

open Interaction Ledger
open Exif (ascii)

/-- An answered call. -/
abbrev SocketEvent : Type := Event SocketOp SocketOp.Ret

/-! ### Opening and closing -/

/-- Does an event open the descriptor `n`? -/
def OpensFd (n : ℕ) : SocketEvent → Bool
  | ⟨.socket _, fd⟩ => decide ((fd : Int) = n)
  | ⟨.accept _ _, fd⟩ => decide ((fd : Int) = n)
  | _ => false

/-- Does an event close the descriptor `n`? -/
def ClosesFd (n : ℕ) : SocketEvent → Bool
  | ⟨.close fd, _⟩ => decide (fd = n)
  | _ => false

/-- Every descriptor has been closed as often as it has been opened, and at no time more
often. -/
structure AllClosed (h : SocketHistory) : Prop where
  not_twice : ∀ h₁, h₁ <+: h → ∀ n, h₁.countP (ClosesFd n) ≤ h₁.countP (OpensFd n)
  closed : ∀ n, h.countP (ClosesFd n) = h.countP (OpensFd n)

/-- Is every value of a message there? -/
def Complete (field : List UInt8 → Option (List UInt8 → DiscoverInfo → DiscoverInfo)) {size : ℕ} :
    Option { bytes : List UInt8 // bytes.length ≤ size } → Prop
  | none => False
  | some bytes =>
    (Discovery.scanTokens field (Discovery.tokens (Discovery.cText bytes)) .zero).2 = true

/-- Answers behind which a descriptor is left open. -/
def Leaks : SocketEvent → Prop
  | ⟨.socket u, fd⟩ => (fd : Int) = 0 ∧ (u = .tether ∨ u = .broadcast)
  | ⟨.connect u fd _ _, r⟩ =>
    0 ≤ fd ∧ (r : Int × Int).1 < 0 ∧ (u = .notify → (r : Int × Int).2 ≠ Discovery.einprogress)
  | ⟨.getsockname fd, r⟩ => 0 ≤ fd ∧ (r : Int × List UInt8).1 < 0
  | ⟨.inetPton _, rc⟩ => (rc : Int) ≤ 0
  | ⟨.getSocketError fd, r⟩ => (r : Int × Int).1 < 0 ∨ (fd = 0 ∧ (r : Int × Int).2 = 0)
  | ⟨.setsockopt _ fd, rc⟩ => 0 ≤ fd ∧ (rc : Int) < 0
  | ⟨.bind u fd _ _, rc⟩ =>
    if u = .register ∨ u = .connect then fd = 0 ∧ 0 ≤ (rc : Int) else (rc : Int) < 0
  | ⟨.listen _ _ _, rc⟩ => (rc : Int) < 0
  | ⟨.accept u _, fd⟩ => u = .invite ∧ (fd : Int) < 0
  | ⟨.recv u _ _, r⟩ => (u = .inviteClient ∧ ¬ Complete Discovery.inviteField r) ∨
    (u = .tetherClient ∧ ¬ Complete Discovery.tetherField r)
  | ⟨.send u _ _, rc⟩ => (u = .inviteClient ∨ u = .tetherClient) ∧ (rc : Int) < 0
  | _ => False

instance (field : List UInt8 → Option (List UInt8 → DiscoverInfo → DiscoverInfo)) {size : ℕ} :
    DecidablePred (@Complete field size)
  | none => isFalse not_false
  | some _ => inferInstanceAs (Decidable (_ = true))

instance : DecidablePred Leaks
  | ⟨.socket _, _⟩ => inferInstanceAs (Decidable (_ ∧ (_ ∨ _)))
  | ⟨.connect _ _ _ _, _⟩ => inferInstanceAs (Decidable (_ ∧ _ ∧ (_ → _)))
  | ⟨.getsockname _, _⟩ => inferInstanceAs (Decidable (_ ∧ _))
  | ⟨.inetPton _, _⟩ => inferInstanceAs (Decidable (_ ≤ _))
  | ⟨.getSocketError _, _⟩ => inferInstanceAs (Decidable (_ ∨ (_ ∧ _)))
  | ⟨.setsockopt _ _, _⟩ => inferInstanceAs (Decidable (_ ∧ _))
  | ⟨.bind _ _ _ _, _⟩ => inferInstanceAs (Decidable (if _ ∨ _ then _ ∧ _ else _))
  | ⟨.listen _ _ _, _⟩ => inferInstanceAs (Decidable (_ < _))
  | ⟨.accept _ _, _⟩ => inferInstanceAs (Decidable (_ ∧ _))
  | ⟨.recv _ _ _, _⟩ => inferInstanceAs (Decidable ((_ ∧ ¬ _) ∨ (_ ∧ ¬ _)))
  | ⟨.send _ _ _, _⟩ => inferInstanceAs (Decidable ((_ ∨ _) ∧ _))
  | ⟨.extraSocketSettings _, _⟩ | ⟨.select _ _ _, _⟩ | ⟨.sendto _ _ _ _, _⟩ | ⟨.close _, _⟩
  | ⟨.checkCancel, _⟩ | ⟨.storeBehind _, _⟩ | ⟨.readBehind, _⟩ => isFalse not_false

/-! Which answers of each call are such; the other calls have none. -/

section Leaks

variable {u : Sock} {fd : Int} {addr data : List UInt8} {port size : ℕ}

@[simp] theorem leaks_socket {r : Int} :
    Leaks ⟨.socket u, r⟩ ↔ r = 0 ∧ (u = .tether ∨ u = .broadcast) := Iff.rfl

@[simp] theorem leaks_connect {r : Int × Int} : Leaks ⟨.connect u fd addr port, r⟩ ↔
    0 ≤ fd ∧ r.1 < 0 ∧ (u = .notify → r.2 ≠ Discovery.einprogress) := Iff.rfl

@[simp] theorem leaks_getsockname {r : Int × List UInt8} :
    Leaks ⟨.getsockname fd, r⟩ ↔ 0 ≤ fd ∧ r.1 < 0 := Iff.rfl

@[simp] theorem leaks_inetPton {rc : Int} : Leaks ⟨.inetPton addr, rc⟩ ↔ rc ≤ 0 := Iff.rfl

@[simp] theorem leaks_getSocketError {r : Int × Int} :
    Leaks ⟨.getSocketError fd, r⟩ ↔ r.1 < 0 ∨ (fd = 0 ∧ r.2 = 0) := Iff.rfl

@[simp] theorem leaks_setsockopt {rc : Int} :
    Leaks ⟨.setsockopt u fd, rc⟩ ↔ 0 ≤ fd ∧ rc < 0 := Iff.rfl

@[simp] theorem leaks_bind {rc : Int} : Leaks ⟨.bind u fd addr port, rc⟩ ↔
    if u = .register ∨ u = .connect then fd = 0 ∧ 0 ≤ rc else rc < 0 := Iff.rfl

@[simp] theorem leaks_listen {n : ℕ} {rc : Int} : Leaks ⟨.listen u fd n, rc⟩ ↔ rc < 0 := Iff.rfl

@[simp] theorem leaks_accept {r : Int} : Leaks ⟨.accept u fd, r⟩ ↔ u = .invite ∧ r < 0 := Iff.rfl

@[simp] theorem leaks_recv {r : Option { bytes : List UInt8 // bytes.length ≤ size }} :
    Leaks ⟨.recv u fd size, r⟩ ↔ (u = .inviteClient ∧ ¬ Complete Discovery.inviteField r) ∨
      (u = .tetherClient ∧ ¬ Complete Discovery.tetherField r) := Iff.rfl

@[simp] theorem leaks_send {rc : Int} :
    Leaks ⟨.send u fd data, rc⟩ ↔ (u = .inviteClient ∨ u = .tetherClient) ∧ rc < 0 := Iff.rfl

@[simp] theorem not_leaks_extraSocketSettings {r : Unit} :
    ¬ Leaks ⟨.extraSocketSettings fd, r⟩ := id

@[simp] theorem not_leaks_select {read write : List Int} {n : ℕ} {r : Int × List Int} :
    ¬ Leaks ⟨.select read write n, r⟩ := id

@[simp] theorem not_leaks_sendto {rc : Int} : ¬ Leaks ⟨.sendto fd data addr port, rc⟩ := id

@[simp] theorem not_leaks_close {r : Unit} : ¬ Leaks ⟨.close fd, r⟩ := id

@[simp] theorem not_leaks_checkCancel {r : Bool} : ¬ Leaks ⟨.checkCancel, r⟩ := id

@[simp] theorem not_leaks_storeBehind {i : ℕ} {r : Unit} : ¬ Leaks ⟨.storeBehind i, r⟩ := id

@[simp] theorem not_leaks_readBehind {text : List UInt8} : ¬ Leaks ⟨.readBehind, text⟩ := id

end Leaks

/-! A fact about the events of a history is taken apart event by event, down to the empty one. -/

theorem not_exists_mem_nil {α : Type} {p : α → Prop} : ¬ ∃ x ∈ ([] : List α), p x :=
  fun ⟨_, hx, _⟩ => List.not_mem_nil hx

theorem forall_mem_nil_iff {α : Type} {p : α → Prop} : (∀ x ∈ ([] : List α), p x) ↔ True :=
  iff_of_true (List.forall_mem_nil p) trivial

attribute [local simp ↓] List.forall_mem_cons List.exists_mem_cons_iff not_exists_mem_nil
  forall_mem_nil_iff

/-! ### The ledger of descriptors -/

/-- One descriptor; there is none that is negative. -/
def held (fd : Int) : ℕ → ℤ := fun n => if fd = n then 1 else 0

/-- A descriptor that the code takes for one. -/
def kept (fd : Int) : ℕ → ℤ := if fd > 0 then held fd else 0

/-- What an event opens, less what it closes. -/
def taken : SocketEvent → ℕ → ℤ
  | ⟨.socket _, fd⟩ => held fd
  | ⟨.accept _ _, fd⟩ => held fd
  | ⟨.close fd, _⟩ => -held fd
  | _ => 0

/-- A history that should open `b` and no more. -/
abbrev Acc (b : ℕ → ℤ) (h : SocketHistory) : Prop := Accounts taken Leaks b h

section Ledger

variable {h h' : SocketHistory} {fd : Int} {e : SocketEvent}

theorem held_nonneg (fd : Int) : 0 ≤ held fd := by
  intro n
  simp only [held, Pi.zero_apply]
  split_ifs <;> omega

theorem held_eq_zero_iff : held fd = 0 ↔ fd < 0 := by
  constructor
  · intro hzero
    by_contra hfd
    have hone := congrFun hzero fd.toNat
    simp only [held, Pi.zero_apply] at hone
    rw [if_pos (by omega)] at hone
    omega
  · intro hfd
    funext n
    simp only [held, Pi.zero_apply]
    rw [if_neg (by omega)]

theorem kept_of_nonpos (hfd : fd ≤ 0) : kept fd = 0 := if_neg (by omega)

theorem kept_of_pos (hfd : 0 < fd) : kept fd = held fd := if_pos hfd

theorem kept_nonneg (fd : Int) : 0 ≤ kept fd := by
  rw [kept]
  split_ifs
  · exact held_nonneg fd
  · exact le_rfl

theorem balance_eq (h : SocketHistory) (n : ℕ) :
    balance taken h n = (h.countP (OpensFd n) : ℤ) - h.countP (ClosesFd n) := by
  induction h with
  | nil => rfl
  | cons e h ih =>
    obtain ⟨op, r⟩ := e
    rw [balance_cons, Pi.add_apply, ih, List.countP_cons, List.countP_cons]
    cases op <;> simp [taken, held, OpensFd, ClosesFd] <;> split_ifs <;> omega

/-- `AllClosed` by the balance. -/
theorem allClosed_iff : AllClosed h ↔ Covered taken 0 h ∧ balance taken h = 0 := by
  constructor
  · rintro ⟨hnot, hclosed⟩
    refine ⟨fun h₁ hpre n => ?_, ?_⟩
    · have hle := hnot h₁ hpre n
      rw [zero_add, balance_eq]
      simp only [Pi.zero_apply]
      omega
    · funext n
      rw [balance_eq, hclosed n, sub_self, Pi.zero_apply]
  · rintro ⟨hcov, hzero⟩
    refine ⟨fun h₁ hpre n => ?_, fun n => ?_⟩
    · have hle : 0 ≤ balance taken h₁ n := by simpa using hcov h₁ hpre n
      rw [balance_eq] at hle
      omega
    · have heq := congrFun hzero n
      rw [balance_eq, Pi.zero_apply] at heq
      omega

end Ledger

/-! ### Histories of one descriptor -/

section Shapes

variable {h : SocketHistory} {fd : Int} {e : SocketEvent}

/-- A descriptor is opened and handed on. -/
theorem acc_kept (he : taken e = held fd) (hw : ∀ e' ∈ h, taken e' = 0)
    (hgood : ∀ e' ∈ e :: h, ¬ Leaks e') : Acc (held fd) (e :: h) := by
  refine accounts_of_nonneg (l := 0) (fun e' he' => ?_) le_rfl ?_ (iff_of_true rfl hgood)
  · rcases List.mem_cons.mp he' with rfl | he'
    · rw [he]
      exact held_nonneg fd
    · exact (hw e' he').ge
  · rw [balance_cons, he, balance_of_zero hw]

/-- Descriptors are opened and lost. -/
theorem acc_of_lost (hw : ∀ e' ∈ h, 0 ≤ taken e') (hlost : balance taken h ≠ 0)
    (hbad : ∃ e' ∈ h, Leaks e') : Acc 0 h := by
  refine accounts_of_nonneg hw (balance_nonneg hw) (zero_add _).symm (iff_of_false hlost ?_)
  obtain ⟨e', he', hleaks⟩ := hbad
  exact fun hgood => hgood e' he' hleaks

/-- A descriptor is opened and lost. -/
theorem acc_lost (hfd : 0 ≤ fd) (he : taken e = held fd) (hw : ∀ e' ∈ h, taken e' = 0)
    (hbad : ∃ e' ∈ e :: h, Leaks e') : Acc 0 (e :: h) := by
  refine acc_of_lost (fun e' he' => ?_) ?_ hbad
  · rcases List.mem_cons.mp he' with rfl | he'
    · rw [he]
      exact held_nonneg fd
    · exact (hw e' he').ge
  · rw [balance_cons, he, balance_of_zero hw, add_zero, ne_eq, held_eq_zero_iff]
    omega

/-- Nothing is opened. -/
theorem acc_idle (hw : ∀ e' ∈ h, taken e' = 0) (hgood : ∀ e' ∈ h, ¬ Leaks e') : Acc 0 h := by
  refine accounts_of_nonneg (l := 0) (fun e' he' => (hw e' he').ge) le_rfl ?_ (iff_of_true rfl hgood)
  rw [balance_of_zero hw, add_zero]

/-- A descriptor is opened and handed on, unless it is 0, which is taken for none. -/
theorem acc_handed_on (hfd : 0 ≤ fd) (he : taken e = held fd) (hw : ∀ e' ∈ h, taken e' = 0)
    (hgood : 0 < fd → ∀ e' ∈ e :: h, ¬ Leaks e') (hbad : fd = 0 → ∃ e' ∈ e :: h, Leaks e') :
    Acc (kept fd) (e :: h) := by
  rcases hfd.lt_or_eq with hpos | hnull
  · rw [kept_of_pos hpos]
    exact acc_kept he hw (hgood hpos)
  · rw [kept_of_nonpos hnull.ge]
    exact acc_lost hfd he hw (hbad hnull.symm)

/-- What has been opened, if anything, is lost. -/
theorem acc_dropped (he : taken e = held fd) (hw : ∀ e' ∈ h, taken e' = 0)
    (hgood : fd < 0 → ∀ e' ∈ e :: h, ¬ Leaks e') (hbad : 0 ≤ fd → ∃ e' ∈ e :: h, Leaks e') :
    Acc 0 (e :: h) := by
  rcases lt_or_ge fd 0 with hneg | hfd
  · refine acc_idle (fun e' he' => ?_) (hgood hneg)
    rcases List.mem_cons.mp he' with rfl | he'
    · rw [he, held_eq_zero_iff.mpr hneg]
    · exact hw e' he'
  · exact acc_lost hfd he hw (hbad hfd)

/-- One of the descriptors is closed. -/
theorem acc_close_one {b : ℕ → ℤ} (hb : 0 ≤ b) (hacc : Acc (held fd + b) h) :
    Acc b (h ++ [⟨.close fd, ()⟩]) := by
  refine hacc.release hb (covered_cons (held_nonneg fd) (covered_nil ?_)) (by simp [taken])
    (by simp)
  simp [taken]

/-- The descriptor is closed. -/
theorem acc_close (hacc : Acc (held fd) h) : Acc 0 (h ++ [⟨.close fd, ()⟩]) :=
  acc_close_one le_rfl (by rwa [add_zero])

end Shapes

/-! ### What the functions hold -/

/-- What `close_all_sockets` will close. -/
def owned (s : DiscoveryState) : ℕ → ℤ :=
  kept s.conFd + kept s.regFd + kept s.tetherFd + kept s.pcssFd

/-- A run should open what the state owns behind it and did not own in front of it. -/
def Acquires (s : DiscoveryState) (h : SocketHistory) (s' : DiscoveryState) : Prop :=
  ∃ b, 0 ≤ b ∧ owned s' = owned s + b ∧ Acc b h

section Acquires

variable {s s' : DiscoveryState} {h : SocketHistory}

theorem acquires_of_acc (howned : owned s' = owned s) (hacc : Acc 0 h) : Acquires s h s' :=
  ⟨0, le_rfl, by rw [howned, add_zero], hacc⟩

instance : Composes Acquires where
  nil s := acquires_of_acc rfl accounts_nil
  append := by
    rintro s s' s'' h h' ⟨b, hb, howned, hacc⟩ ⟨b', hb', howned', hacc'⟩
    exact ⟨b + b', add_nonneg hb hb', by rw [howned', howned, add_assoc], hacc.append hb hacc'⟩

/-- Calls that neither open nor close a descriptor, and leave none behind. -/
theorem ask_acquires {op : SocketOp} (hw : ∀ r, taken ⟨op, r⟩ = 0) (hgood : ∀ r, ¬ Leaks ⟨op, r⟩) :
    Obeys Acquires (Discovery.ask op) :=
  obeys_call fun _ r => acquires_of_acc rfl
    (acc_idle (List.forall_mem_singleton.mpr (hw r)) (List.forall_mem_singleton.mpr (hgood r)))

theorem scanText_acquires
    (field : List UInt8 → Option (List UInt8 → DiscoverInfo → DiscoverInfo)) (text : List UInt8) :
    Obeys Acquires (Discovery.scanText field text) :=
  obeys_bind obeys_get fun _ =>
    obeys_bind (obeys_modify fun _ => acquires_of_acc rfl accounts_nil) fun _ => obeys_pure _

theorem readString_acquires (buffer : Vector UInt8 64) :
    Obeys Acquires (Discovery.readString buffer) :=
  obeys_ite (obeys_pure _)
    (obeys_bind (ask_acquires (by simp [taken]) (by simp)) fun _ => obeys_pure _)

/-- The probe of the local address. -/
theorem getLocalIp_acc {r : Int × List UInt8} (hrun : Exec Discovery.getLocalIp s h r s') :
    s' = s ∧ Acc 0 h := by
  obtain ⟨fd, h₁, rfl, hrun₁⟩ := exec_call_bind.mp hrun
  obtain ⟨_, h₂, rfl, hrun₂⟩ := exec_call_bind.mp hrun₁
  obtain ⟨c, h₃, rfl, hrun₃⟩ := exec_call_bind.mp hrun₂
  have he : taken ⟨.socket .probe, fd⟩ = held fd := rfl
  by_cases hc : (c : Int × Int).1 < 0
  · rw [if_pos hc] at hrun₃
    cases hrun₃
    refine ⟨rfl, acc_dropped he (by simp [taken]) (fun hneg => ?_) fun hfd => ?_⟩
    · simp [not_le.mpr hneg]
    · simp [hfd, hc]
  rw [if_neg hc] at hrun₃
  obtain ⟨name, h₄, rfl, hrun₄⟩ := exec_call_bind.mp hrun₃
  by_cases hname : (name : Int × List UInt8).1 < 0
  · rw [if_pos hname] at hrun₄
    cases hrun₄
    refine ⟨rfl, acc_dropped he (by simp [taken]) (fun hneg => ?_) fun hfd => ?_⟩
    · simp [not_le.mpr hneg]
    · simp [hfd, hname]
  · rw [if_neg hname] at hrun₄
    obtain ⟨_, h₅, rfl, hrun₅⟩ := exec_call_bind.mp hrun₄
    cases hrun₅
    refine ⟨rfl, acc_close (acc_kept (h := [_, _, _]) he (by simp [taken]) ?_)⟩
    simp [hc, hname]

/-- The notify server: the descriptor that is returned is handed on. -/
theorem connectToNotifyServer_acc {ip : List UInt8} {port : ℕ} {fd : Int}
    (hrun : Exec (Discovery.connectToNotifyServer ip port) s h fd s') : s' = s ∧ Acc (kept fd) h := by
  obtain ⟨sock, h₁, rfl, hrun₁⟩ := exec_call_bind.mp hrun
  have he : taken ⟨.socket .notify, sock⟩ = held sock := rfl
  have hminus : kept (-1) = 0 := kept_of_nonpos (by decide)
  by_cases hsock : (sock : Int) < 0
  · rw [if_pos hsock] at hrun₁
    cases hrun₁
    rw [hminus]
    exact ⟨rfl, acc_idle (by simp [taken, held_eq_zero_iff.mpr hsock]) (by simp)⟩
  rw [if_neg hsock] at hrun₁
  have hfd : (0 : Int) ≤ sock := not_lt.mp hsock
  obtain ⟨_, h₂, rfl, hrun₂⟩ := exec_call_bind.mp hrun₁
  obtain ⟨rc, h₃, rfl, hrun₃⟩ := exec_call_bind.mp hrun₂
  by_cases hpton : (rc : Int) ≤ 0
  · rw [if_pos hpton] at hrun₃
    cases hrun₃
    rw [hminus]
    exact ⟨rfl, acc_lost hfd he (by simp [taken]) (by simp [hpton])⟩
  rw [if_neg hpton] at hrun₃
  obtain ⟨c, h₄, rfl, hrun₄⟩ := exec_call_bind.mp hrun₃
  by_cases hc : (c : Int × Int).1 < 0 ∧ (c : Int × Int).2 ≠ Discovery.einprogress
  · rw [if_pos hc] at hrun₄
    cases hrun₄
    rw [hminus]
    exact ⟨rfl, acc_lost hfd he (by simp [taken]) (by simp [hfd, hc])⟩
  rw [if_neg hc] at hrun₄
  obtain ⟨n, h₅, rfl, hrun₅⟩ := exec_call_bind.mp hrun₄
  have hgood : (c : Int × Int).1 < 0 → (c : Int × Int).2 = Discovery.einprogress :=
    fun hneg => not_not.mp fun hne => hc ⟨hneg, hne⟩
  have hzero : kept 0 = 0 := kept_of_nonpos le_rfl
  by_cases hn : (n : Int × List Int).1 = 1
  · rw [if_pos hn] at hrun₅
    obtain ⟨e, h₆, rfl, hrun₆⟩ := exec_call_bind.mp hrun₅
    by_cases herr : (e : Int × Int).1 < 0
    · rw [if_pos herr] at hrun₆
      cases hrun₆
      rw [hminus]
      exact ⟨rfl, acc_lost hfd he (by simp [taken]) (by simp [herr])⟩
    rw [if_neg herr] at hrun₆
    by_cases hconn : (e : Int × Int).2 = 0
    · rw [if_pos hconn] at hrun₆
      cases hrun₆
      refine ⟨rfl, acc_handed_on hfd he (by simp [taken]) (fun hpos => ?_) fun hnull => ?_⟩
      · simpa [hfd, hpton, herr, hpos.ne'] using hgood
      · simp [hconn, hnull]
    · rw [if_neg hconn] at hrun₆
      obtain ⟨_, h₇, rfl, hrun₇⟩ := exec_call_bind.mp hrun₆
      cases hrun₇
      rw [hzero]
      refine ⟨rfl, acc_close (acc_kept (h := [_, _, _, _, _]) he (by simp [taken]) ?_)⟩
      simpa [hfd, hpton, herr, hconn] using hgood
  · rw [if_neg hn] at hrun₅
    obtain ⟨_, h₆, rfl, hrun₆⟩ := exec_call_bind.mp hrun₅
    cases hrun₆
    rw [hzero]
    refine ⟨rfl, acc_close (acc_kept (h := [_, _, _, _]) he (by simp [taken]) ?_)⟩
    simpa [hfd, hpton] using hgood

theorem notifyServer_acquires (fd : Int) : Obeys Acquires (Discovery.notifyServer fd) := by
  have hack : Obeys Acquires (Discovery.receiveAck fd) := by
    refine obeys_bind (ask_acquires (by simp [taken]) (by simp)) fun r => ?_
    cases r with
    | none =>
      refine obeys_bind (ask_acquires (by simp [taken]) (by simp)) fun _ => ?_
      exact obeys_bind (ask_acquires (by simp [taken]) (by simp)) fun _ => obeys_pure _
    | some bytes =>
      refine obeys_ite (obeys_pure _) (obeys_ite ?_ (obeys_pure _))
      exact obeys_bind (ask_acquires (by simp [taken]) (by simp)) fun _ => obeys_pure _
  refine obeys_bind obeys_get fun s => obeys_bind (readString_acquires _) fun ip => ?_
  refine obeys_bind (readString_acquires _) fun name => ?_
  refine obeys_bind (ask_acquires (by simp [taken]) (by simp)) fun len => ?_
  refine obeys_ite (obeys_pure _) (obeys_bind hack fun ack => ?_)
  cases ack with
  | none => exact obeys_pure _
  | some text => exact obeys_ite (obeys_pure _) (obeys_pure _)

/-- The descriptor of the notify server is closed, whatever it has answered. -/
theorem respondToDatagram_acquires (greeting : List UInt8) :
    Obeys Acquires (Discovery.respondToDatagram greeting) := by
  refine obeys_bind (scanText_acquires _ _) fun complete => obeys_ite (obeys_pure _) ?_
  refine obeys_bind obeys_get fun s => obeys_bind (readString_acquires _) fun ip => ?_
  intro s h rc s' hrun
  obtain ⟨h₁, fd, s₁, h₂, rfl, hconnect, hrun₁⟩ := exec_of_bind hrun
  obtain ⟨rfl, hacc⟩ := connectToNotifyServer_acc hconnect
  by_cases hfd : fd ≤ 0
  · rw [if_pos hfd] at hrun₁
    cases hrun₁
    rw [kept_of_nonpos hfd] at hacc
    rw [List.append_nil]
    exact acquires_of_acc rfl hacc
  · rw [if_neg hfd] at hrun₁
    obtain ⟨h₃, rc₁, s₂, h₄, rfl, hnotify, hrun₂⟩ := exec_of_bind hrun₁
    obtain ⟨_, h₅, rfl, hrun₃⟩ := exec_call_bind.mp hrun₂
    cases hrun₃
    obtain ⟨b, hb, howned, hacc₁⟩ := notifyServer_acquires fd _ _ _ _ hnotify
    rw [kept_of_pos (not_le.mp hfd)] at hacc
    refine ⟨b, hb, howned, ?_⟩
    rw [← List.append_assoc]
    exact acc_close_one hb (hacc.append (held_nonneg fd) hacc₁)

/-- The tether server with a client. -/
theorem fujiTetherAccept_acquires (serverFd : Int) :
    Obeys Acquires (Discovery.fujiTetherAccept serverFd) := by
  intro s h rc s' hrun
  obtain ⟨fd, h₁, rfl, hrun₁⟩ := exec_call_bind.mp hrun
  have he : taken ⟨.accept .tether serverFd, fd⟩ = held fd := rfl
  by_cases hneg : (fd : Int) < 0
  · rw [if_pos hneg] at hrun₁
    cases hrun₁
    exact acquires_of_acc rfl
      (acc_idle (by simp [taken, held_eq_zero_iff.mpr hneg]) (by simp))
  rw [if_neg hneg] at hrun₁
  have hfd : (0 : Int) ≤ fd := not_lt.mp hneg
  obtain ⟨r, h₂, rfl, hrun₂⟩ := exec_call_bind.mp hrun₁
  cases r with
  | none =>
    cases hrun₂
    exact acquires_of_acc rfl (acc_lost hfd he (by simp [taken]) (by simp [Complete]))
  | some bytes =>
    have hscan := Discovery.exec_scanText_bind.mp hrun₂
    have hcomplete := @Discovery.scanTokens_complete Discovery.tetherField
      (Discovery.tokens (Discovery.cText bytes)) s.info .zero
    by_cases hmissing : (Discovery.scanTokens Discovery.tetherField
        (Discovery.tokens (Discovery.cText bytes)) s.info).2 = false
    · rw [if_pos hmissing] at hscan
      cases hscan
      refine acquires_of_acc rfl (acc_lost hfd he (by simp [taken]) ?_)
      simp [Complete, ← hcomplete, hmissing]
    rw [if_neg hmissing] at hscan
    obtain ⟨n, h₃, rfl, hrun₃⟩ := exec_call_bind.mp hscan
    by_cases hn : (n : Int) < 0
    · rw [if_pos hn] at hrun₃
      cases hrun₃
      exact acquires_of_acc rfl (acc_lost hfd he (by simp [taken]) (by simp [hn]))
    · rw [if_neg hn] at hrun₃
      obtain ⟨_, h₄, rfl, hrun₄⟩ := exec_call_bind.mp hrun₃
      cases hrun₄
      refine acquires_of_acc rfl (acc_close (acc_kept (h := [_, _]) he (by simp [taken]) ?_))
      simp [Complete, ← hcomplete, hmissing, hn]

/-- The answer to a client of the invite server: either both descriptors are left open, or they
are closed last. -/
theorem answerInvite_cases {port : ℕ} {serverFd clientFd rc : Int}
    (hport : port = Discovery.fujiAutosaveRegister ∨ port = Discovery.fujiAutosaveConnect)
    (hrun : Exec (Discovery.answerInvite port serverFd clientFd) s h rc s') :
    owned s' = owned s ∧
      (((∀ e ∈ h, taken e = 0) ∧ ∃ e ∈ h, Leaks e) ∨
        ∃ g, h = g ++ [⟨.close clientFd, ()⟩] ++ [⟨.close serverFd, ()⟩] ∧
          (∀ e ∈ g, taken e = 0) ∧ ∀ e ∈ g, ¬ Leaks e) := by
  obtain ⟨r, h₁, rfl, hrun₁⟩ := exec_call_bind.mp hrun
  cases r with
  | none =>
    cases hrun₁
    exact ⟨rfl, .inl ⟨by simp [taken], by simp [Complete]⟩⟩
  | some bytes =>
    have hscan := Discovery.exec_scanText_bind.mp hrun₁
    have hcomplete := @Discovery.scanTokens_complete Discovery.inviteField
      (Discovery.tokens (Discovery.cText bytes)) s.info .zero
    by_cases hmissing : (Discovery.scanTokens Discovery.inviteField
        (Discovery.tokens (Discovery.cText bytes)) s.info).2 = false
    · rw [if_pos hmissing] at hscan
      cases hscan
      refine ⟨rfl, .inl ⟨by simp [taken], ?_⟩⟩
      simp [Complete, ← hcomplete, hmissing]
    rw [if_neg hmissing, if_neg (by omega)] at hscan
    obtain ⟨n, h₂, rfl, hrun₂⟩ := exec_call_bind.mp hscan
    by_cases hn : (n : Int) < 0
    · rw [if_pos hn] at hrun₂
      cases hrun₂
      exact ⟨rfl, .inl ⟨by simp [taken], by simp [hn]⟩⟩
    · rw [if_neg hn] at hrun₂
      obtain ⟨_, h₃, rfl, hrun₃⟩ := exec_call_bind.mp hrun₂
      obtain ⟨_, h₄, rfl, hrun₄⟩ := exec_call_bind.mp hrun₃
      cases hrun₄
      refine ⟨rfl, .inr ⟨[_, _], rfl, by simp [taken], ?_⟩⟩
      simp [Complete, ← hcomplete, hmissing, hn]

/-- The invite server. -/
theorem startInviteServer_acquires {port : ℕ}
    (hport : port = Discovery.fujiAutosaveRegister ∨ port = Discovery.fujiAutosaveConnect) :
    Obeys Acquires (Discovery.startInviteServer port) := by
  intro s h rc s' hrun
  obtain ⟨fd, h₁, rfl, hrun₁⟩ := exec_call_bind.mp hrun
  have he : taken ⟨.socket .invite, fd⟩ = held fd := rfl
  by_cases hneg : (fd : Int) < 0
  · rw [if_pos hneg] at hrun₁
    cases hrun₁
    exact acquires_of_acc rfl
      (acc_idle (by simp [taken, held_eq_zero_iff.mpr hneg]) (by simp))
  rw [if_neg hneg] at hrun₁
  have hfd : (0 : Int) ≤ fd := not_lt.mp hneg
  obtain ⟨_, h₂, rfl, hrun₂⟩ := exec_call_bind.mp hrun₁
  obtain ⟨opt, h₃, rfl, hrun₃⟩ := exec_call_bind.mp hrun₂
  by_cases hopt : (opt : Int) < 0
  · rw [if_pos hopt] at hrun₃
    cases hrun₃
    exact acquires_of_acc rfl (acc_lost hfd he (by simp [taken]) (by simp [hfd, hopt]))
  rw [if_neg hopt] at hrun₃
  obtain ⟨bound, h₄, rfl, hrun₄⟩ := exec_call_bind.mp hrun₃
  by_cases hbound : (bound : Int) < 0
  · rw [if_pos hbound] at hrun₄
    cases hrun₄
    exact acquires_of_acc rfl (acc_lost hfd he (by simp [taken]) (by simp [hbound]))
  rw [if_neg hbound] at hrun₄
  obtain ⟨lis, h₅, rfl, hrun₅⟩ := exec_call_bind.mp hrun₄
  by_cases hlis : (lis : Int) < 0
  · rw [if_pos hlis] at hrun₅
    cases hrun₅
    exact acquires_of_acc rfl (acc_lost hfd he (by simp [taken]) (by simp [hlis]))
  rw [if_neg hlis] at hrun₅
  obtain ⟨sel, h₆, rfl, hrun₆⟩ := exec_call_bind.mp hrun₅
  by_cases hsel : (sel : Int × List Int).1 ≤ 0
  · rw [if_pos hsel] at hrun₆
    obtain ⟨_, h₇, rfl, hrun₇⟩ := exec_call_bind.mp hrun₆
    cases hrun₇
    exact acquires_of_acc rfl (acc_close (acc_kept (h := [_, _, _, _, _]) he (by simp [taken])
      (by simp [hfd, hopt, hbound, hlis])))
  rw [if_neg hsel] at hrun₆
  obtain ⟨client, h₇, rfl, hrun₇⟩ := exec_call_bind.mp hrun₆
  by_cases hclient : (client : Int) < 0
  · rw [if_pos hclient] at hrun₇
    cases hrun₇
    refine acquires_of_acc rfl (acc_lost hfd he ?_ (by simp [hclient]))
    simp [taken, held_eq_zero_iff.mpr hclient]
  rw [if_neg hclient] at hrun₇
  obtain ⟨howned, ⟨hw, hbad⟩ | ⟨g, rfl, hw, hgood⟩⟩ := answerInvite_cases hport hrun₇
  · -- both descriptors are lost
    refine acquires_of_acc howned (acc_of_lost ?_ ?_ ?_)
    · simpa [taken, held_nonneg] using fun e he => (hw e he).ge
    · have hone : held fd ≠ 0 := fun hzero => hneg (held_eq_zero_iff.mp hzero)
      have hsum := add_eq_zero_iff_of_nonneg (held_nonneg fd) (held_nonneg client)
      simp only [balance_cons, balance_of_zero hw, taken]
      simpa [hsum] using fun hzero => absurd hzero hone
    · obtain ⟨e, hmem, hleaks⟩ := hbad
      exact ⟨e, by simp [hmem], hleaks⟩
  · have hacc : Acc (held client + held fd) (⟨.socket .invite, fd⟩ :: ⟨.extraSocketSettings fd, ()⟩ ::
        ⟨.setsockopt .invite fd, opt⟩ :: ⟨.bind .invite fd Discovery.inaddrAny port, bound⟩ ::
        ⟨.listen .invite fd 5, lis⟩ :: ⟨.select [fd] [] 30, sel⟩ ::
        ⟨.accept .invite fd, client⟩ :: g) := by
      refine accounts_of_nonneg (l := 0) ?_ le_rfl ?_ (iff_of_true rfl ?_)
      · simpa [taken, held_nonneg] using fun e he => (hw e he).ge
      · simp only [balance_cons, balance_of_zero hw, taken]
        abel
      · simpa [hopt, hbound, hlis, hclient] using hgood
    refine acquires_of_acc howned ?_
    simpa using acc_close (acc_close_one (held_nonneg fd) hacc)

/-- Calls of the loop that leave the descriptors alone. -/
theorem modifyInfo_acquires (f : DiscoverInfo → DiscoverInfo) :
    Obeys Acquires (modify fun s => { s with info := f s.info } : DiscM Unit) :=
  obeys_modify fun _ => acquires_of_acc rfl accounts_nil

theorem acceptDatagram_acquires {port : ℕ} (greeting : List UInt8)
    (hport : port = Discovery.fujiAutosaveRegister ∨ port = Discovery.fujiAutosaveConnect) :
    Obeys Acquires (Discovery.acceptDatagram port greeting) :=
  obeys_bind (respondToDatagram_acquires greeting) fun _ =>
    obeys_ite (obeys_pure _) (startInviteServer_acquires hport)

theorem acceptConnect_acquires (greeting : List UInt8) :
    Obeys Acquires (Discovery.acceptConnect greeting) := by
  refine obeys_bind (acceptDatagram_acquires greeting (.inr rfl)) fun rc => ?_
  refine obeys_ite (obeys_pure _) (obeys_bind ?_ fun _ => obeys_pure _)
  exact modifyInfo_acquires fun info => { info with cameraPort := fujiCmdIpPort }

/-- The datagram is received on the socket of registration or of connections. -/
theorem receiveGreeting_acquires {u : Sock} (hu : u = .register ∨ u = .connect) (fd : Int) :
    Obeys Acquires (Discovery.receiveGreeting u fd) := by
  refine obeys_bind (modifyInfo_acquires fun info => { info with transport := .autosave }) fun _ => ?_
  refine obeys_bind (ask_acquires (by simp [taken]) ?_) fun r => ?_
  · rcases hu with rfl | rfl <;> simp
  · cases r with
    | none =>
      refine obeys_bind (ask_acquires (by simp [taken]) (by simp)) fun _ => ?_
      exact obeys_bind (ask_acquires (by simp [taken]) (by simp)) fun _ => obeys_pure _
    | some bytes => exact obeys_ite (obeys_pure _) (obeys_pure _)

theorem onDatagram_acquires {u : Sock} (hu : u = .register ∨ u = .connect) (fd : Int)
    {accept : List UInt8 → DiscM Int} (haccept : ∀ greeting, Obeys Acquires (accept greeting))
    (result : Int) : Obeys Acquires (Discovery.onDatagram u fd accept result) := by
  refine obeys_bind (receiveGreeting_acquires hu fd) fun greeting => ?_
  cases greeting with
  | none => exact obeys_pure _
  | some greeting =>
    exact obeys_bind (haccept greeting) fun _ => obeys_ite (obeys_pure _) (obeys_pure _)

theorem onTether_acquires (fd : Int) : Obeys Acquires (Discovery.onTether fd) := by
  refine obeys_bind (modifyInfo_acquires fun info => { info with transport := .wirelessTether })
    fun _ => ?_
  exact obeys_bind (fujiTetherAccept_acquires fd) fun _ => obeys_ite (obeys_pure _) (obeys_pure _)

/-- A turn of the loop owns what it owned before, whatever the cameras send. -/
theorem stateIdle_acquires (localIp : List UInt8) :
    Obeys Acquires (Discovery.stateIdle localIp) := by
  refine obeys_bind obeys_get fun s => obeys_bind ?_ fun sent => obeys_ite (obeys_pure _) ?_
  · refine obeys_ite (obeys_bind ?_ fun _ => obeys_ite (obeys_pure _) (obeys_pure _)) (obeys_pure _)
    exact ask_acquires (by simp [taken]) (by simp)
  refine obeys_bind (ask_acquires (by simp [taken]) (by simp)) fun r => ?_
  refine obeys_ite (obeys_pure _) (obeys_ite ?_ (obeys_ite ?_ (obeys_ite ?_ ?_)))
  · exact onDatagram_acquires (.inl rfl) _ (acceptDatagram_acquires · (.inl rfl)) _
  · exact onDatagram_acquires (.inr rfl) _ acceptConnect_acquires _
  · exact onTether_acquires _
  · refine obeys_bind (ask_acquires (by simp [taken]) (by simp)) fun _ => ?_
    exact obeys_ite (obeys_pure _) (obeys_pure _)

/-- The loop, by induction on the turns. -/
theorem idleLoop_acquires (localIp : List UInt8) (n : ℕ) :
    Obeys Acquires (Discovery.idleLoop localIp n) := by
  induction n with
  | zero => exact obeys_hang
  | succ n ih =>
    exact obeys_bind (stateIdle_acquires localIp) fun _ => obeys_ite ih (obeys_pure _)

/-! ### The sockets of the loop -/

/-- The sockets of datagrams: the descriptor that is returned is handed on. -/
theorem openDgramSocket_acc {u : Sock} {port : ℕ} {fd : Int} (hu : u = .register ∨ u = .connect)
    (hrun : Exec (Discovery.openDgramSocket u port) s h fd s') : s' = s ∧ Acc (kept fd) h := by
  obtain ⟨sock, h₁, rfl, hrun₁⟩ := exec_call_bind.mp hrun
  have he : taken ⟨.socket u, sock⟩ = held sock := rfl
  have hopen : ¬ Leaks ⟨.socket u, sock⟩ := by rcases hu with rfl | rfl <;> simp
  by_cases hneg : (sock : Int) < 0
  · rw [if_pos hneg] at hrun₁
    cases hrun₁
    rw [kept_of_nonpos (by decide)]
    exact ⟨rfl, acc_idle (by simp [taken, held_eq_zero_iff.mpr hneg]) (by simpa using hopen)⟩
  rw [if_neg hneg] at hrun₁
  have hfd : (0 : Int) ≤ sock := not_lt.mp hneg
  obtain ⟨_, h₂, rfl, hrun₂⟩ := exec_call_bind.mp hrun₁
  obtain ⟨rc, h₃, rfl, hrun₃⟩ := exec_call_bind.mp hrun₂
  by_cases hbind : (rc : Int) < 0
  · rw [if_pos hbind] at hrun₃
    obtain ⟨_, h₄, rfl, hrun₄⟩ := exec_call_bind.mp hrun₃
    cases hrun₄
    rw [kept_of_nonpos (by decide)]
    refine ⟨rfl, acc_close (acc_kept (h := [_, _]) he (by simp [taken]) ?_)⟩
    rcases hu with rfl | rfl <;> simpa using fun _ => hbind
  · rw [if_neg hbind] at hrun₃
    cases hrun₃
    refine ⟨rfl, acc_handed_on hfd he (by simp [taken]) (fun hpos => ?_) fun hnull => ?_⟩
    · simp [hu, hpos.ne']
    · simp [hu, hnull, not_lt.mp hbind]

/-- The tether server. -/
theorem fujiOpenTetherServer_acc {localIp : List UInt8} {fd : Int}
    (hrun : Exec (Discovery.fujiOpenTetherServer localIp) s h fd s') :
    s' = s ∧ Acc (kept fd) h := by
  obtain ⟨sock, h₁, rfl, hrun₁⟩ := exec_call_bind.mp hrun
  have he : taken ⟨.socket .tether, sock⟩ = held sock := rfl
  have hminus : kept (-1) = 0 := kept_of_nonpos (by decide)
  by_cases hneg : (sock : Int) < 0
  · rw [if_pos hneg] at hrun₁
    cases hrun₁
    rw [hminus]
    exact ⟨rfl, acc_idle (by simp [taken, held_eq_zero_iff.mpr hneg]) (by simp [hneg.ne])⟩
  rw [if_neg hneg] at hrun₁
  have hfd : (0 : Int) ≤ sock := not_lt.mp hneg
  obtain ⟨_, h₂, rfl, hrun₂⟩ := exec_call_bind.mp hrun₁
  obtain ⟨opt, h₃, rfl, hrun₃⟩ := exec_call_bind.mp hrun₂
  by_cases hopt : (opt : Int) < 0
  · rw [if_pos hopt] at hrun₃
    cases hrun₃
    rw [hminus]
    exact ⟨rfl, acc_lost hfd he (by simp [taken]) (by simp [hfd, hopt])⟩
  rw [if_neg hopt] at hrun₃
  obtain ⟨bound, h₄, rfl, hrun₄⟩ := exec_call_bind.mp hrun₃
  by_cases hbound : (bound : Int) < 0
  · rw [if_pos hbound] at hrun₄
    cases hrun₄
    rw [hminus]
    exact ⟨rfl, acc_lost hfd he (by simp [taken]) (by simp [hbound])⟩
  rw [if_neg hbound] at hrun₄
  obtain ⟨lis, h₅, rfl, hrun₅⟩ := exec_call_bind.mp hrun₄
  by_cases hlis : (lis : Int) < 0
  · rw [if_pos hlis] at hrun₅
    cases hrun₅
    rw [hminus]
    exact ⟨rfl, acc_lost hfd he (by simp [taken]) (by simp [hlis])⟩
  · rw [if_neg hlis] at hrun₅
    cases hrun₅
    refine ⟨rfl, acc_handed_on hfd he (by simp [taken]) (fun hpos => ?_) fun hnull => ?_⟩
    · simp [hpos.ne', hopt, hbound, hlis]
    · simp [hnull]

/-- The socket of broadcasts: its settings are asked for without a check of the descriptor. -/
theorem openPcss_acc {fd : Int} (hrun : Exec Discovery.openPcss s h fd s') :
    s' = s ∧ Acc (kept fd) h := by
  obtain ⟨sock, h₁, rfl, hrun₁⟩ := exec_call_bind.mp hrun
  have he : taken ⟨.socket .broadcast, sock⟩ = held sock := rfl
  obtain ⟨_, h₂, rfl, hrun₂⟩ := exec_call_bind.mp hrun₁
  obtain ⟨opt, h₃, rfl, hrun₃⟩ := exec_call_bind.mp hrun₂
  by_cases hopt : (opt : Int) < 0
  · rw [if_pos hopt] at hrun₃
    cases hrun₃
    rw [kept_of_nonpos (by decide)]
    refine ⟨rfl, acc_dropped he (by simp [taken]) (fun hneg => ?_) fun hfd => ?_⟩
    · simp [hneg.ne, not_le.mpr hneg]
    · simp [hfd, hopt]
  · rw [if_neg hopt] at hrun₃
    cases hrun₃
    rcases lt_or_ge (fd : Int) 0 with hneg | hfd
    · rw [kept_of_nonpos hneg.le]
      refine ⟨rfl, acc_idle (by simp [taken, held_eq_zero_iff.mpr hneg]) ?_⟩
      simp [hneg.ne, not_le.mpr hneg]
    · refine ⟨rfl, acc_handed_on hfd he (by simp [taken]) (fun hpos => ?_) fun hnull => ?_⟩
      · simp [hpos.ne', hopt]
      · simp [hnull]

/-- A descriptor of the state that is opened if it is not yet there. -/
theorem fill_acquires {field : DiscoveryState → Int} {set : Int → DiscoveryState → DiscoveryState}
    {m : DiscM Int} {k : Int → DiscM Int}
    (hset : ∀ fd s, field s = 0 → owned (set fd s) = owned s + kept fd)
    (hm : ∀ s h fd s', Exec m s h fd s' → s' = s ∧ Acc (kept fd) h)
    (hk : ∀ fd, Obeys Acquires (k fd)) :
    Obeys Acquires (do
      let s ← get
      if field s = 0 then
        let fd ← m
        modify (set fd)
        k fd
      else return 0) := by
  intro s h rc s' hrun
  have hrun₁ := exec_get_bind.mp hrun
  by_cases hfield : field s = 0
  · rw [if_pos hfield] at hrun₁
    obtain ⟨h₁, fd, s₁, h₂, rfl, hopen, hrun₂⟩ := exec_of_bind hrun₁
    obtain ⟨rfl, hacc⟩ := hm _ _ _ _ hopen
    have hfilled : Acquires s₁ h₁ (set fd s₁) := ⟨kept fd, kept_nonneg fd, hset fd s₁ hfield, hacc⟩
    exact Composes.append hfilled (hk fd _ _ _ _ (exec_modify_bind.mp hrun₂))
  · rw [if_neg hfield] at hrun₁
    exact obeys_pure 0 _ _ _ _ hrun₁

/-- The sockets of the loop are opened, up to the first failure. -/
theorem tryConnectAllSockets_acquires (localIp : List UInt8) :
    Obeys Acquires (Discovery.tryConnectAllSockets localIp) := by
  have hk (c : Prop) [Decidable c] :
      Obeys Acquires (if c then return -1 else return 0 : DiscM Int) :=
    obeys_ite (obeys_pure _) (obeys_pure _)
  refine obeys_bind ?_ fun _ => obeys_ite (obeys_pure _) (obeys_bind ?_ fun _ =>
    obeys_ite (obeys_pure _) (obeys_bind ?_ fun _ => obeys_ite (obeys_pure _) ?_))
  · refine @fill_acquires (·.regFd) (fun fd s => { s with regFd := fd }) _ _ (fun fd s hfield => ?_)
      (fun _ _ _ _ => openDgramSocket_acc (.inl rfl)) fun fd => hk _
    simp only [owned, hfield, kept_of_nonpos le_rfl]
    abel
  · refine @fill_acquires (·.conFd) (fun fd s => { s with conFd := fd }) _ _ (fun fd s hfield => ?_)
      (fun _ _ _ _ => openDgramSocket_acc (.inr rfl)) fun fd => hk _
    simp only [owned, hfield, kept_of_nonpos le_rfl]
    abel
  · refine @fill_acquires (·.tetherFd) (fun fd s => { s with tetherFd := fd }) _ _ (fun fd s hfield => ?_)
      (fun _ _ _ _ => fujiOpenTetherServer_acc) fun fd => hk _
    simp only [owned, hfield, kept_of_nonpos le_rfl]
    abel
  · refine @fill_acquires (·.pcssFd) (fun fd s => { s with pcssFd := fd }) _ _ (fun fd s hfield => ?_)
      (fun _ _ _ _ => openPcss_acc) fun fd => hk _
    simp only [owned, hfield, kept_of_nonpos le_rfl]
    abel

theorem discover_acquires (fuel : ℕ) (localIp : List UInt8) :
    Obeys Acquires (Discovery.discover fuel localIp) :=
  obeys_bind (tryConnectAllSockets_acquires localIp) fun _ =>
    obeys_ite (idleLoop_acquires localIp fuel) (obeys_pure _)

/-- A descriptor of the state is closed, if there is one. -/
theorem closeSocket_acc {fd : Int} {b : ℕ → ℤ} {h' : SocketHistory} (hb : 0 ≤ b)
    (hrun : Exec (Discovery.closeSocket fd) s h' () s') (hacc : Acc (kept fd + b) h) :
    s' = s ∧ Acc b (h ++ h') := by
  by_cases hfd : fd > 0
  · rw [Discovery.closeSocket, if_pos hfd] at hrun
    obtain ⟨_, _, rfl, hret⟩ := exec_call_bind.mp hrun
    cases hret
    rw [kept_of_pos hfd] at hacc
    exact ⟨rfl, acc_close_one hb hacc⟩
  · rw [Discovery.closeSocket, if_neg hfd] at hrun
    cases hrun
    rw [kept_of_nonpos (not_lt.mp hfd), zero_add] at hacc
    rw [List.append_nil]
    exact ⟨rfl, hacc⟩

/-- Whatever the state owns is closed. -/
theorem closeAllSockets_acc {h' : SocketHistory}
    (hrun : Exec Discovery.closeAllSockets s h' () s') (hacc : Acc (owned s) h) :
    Acc 0 (h ++ h') := by
  have hcon : owned s = kept s.conFd + (kept s.regFd + (kept s.tetherFd + (kept s.pcssFd + 0))) := by
    rw [owned]
    abel
  rw [hcon] at hacc
  have hpcss : 0 ≤ kept s.pcssFd + 0 := add_nonneg (kept_nonneg _) le_rfl
  have htether := add_nonneg (kept_nonneg s.tetherFd) hpcss
  have hreg := add_nonneg (kept_nonneg s.regFd) htether
  obtain ⟨h₁, _, s₁, h₂, rfl, hclose₁, hrun₁⟩ := exec_of_bind (exec_get_bind.mp hrun)
  obtain ⟨rfl, hacc₁⟩ := closeSocket_acc hreg hclose₁ hacc
  obtain ⟨h₃, _, s₂, h₄, rfl, hclose₂, hrun₂⟩ := exec_of_bind hrun₁
  obtain ⟨rfl, hacc₂⟩ := closeSocket_acc htether hclose₂ hacc₁
  obtain ⟨h₅, _, s₃, h₆, rfl, hclose₃, hclose₄⟩ := exec_of_bind hrun₂
  obtain ⟨rfl, hacc₃⟩ := closeSocket_acc hpcss hclose₃ hacc₂
  obtain ⟨-, hacc₄⟩ := closeSocket_acc le_rfl hclose₄ hacc₃
  simpa [List.append_assoc] using hacc₄

end Acquires

/-! ### The thread -/

section Thread

variable {fuel : ℕ} {clientName : List UInt8} {s s' : DiscoveryState} {h : SocketHistory} {rc : Int}

/-- A run of discovery should leave nothing open. -/
theorem fujiDiscoverThread_acc
    (hrun : Exec (Discovery.fujiDiscoverThread fuel clientName) s h rc s') : Acc 0 h := by
  have hnone : owned (Discovery.startState clientName) = 0 := by
    simp [owned, Discovery.startState, kept_of_nonpos]
  obtain ⟨h₁, loc, s₁, h₂, rfl, hprobe, hrun₁⟩ := exec_of_bind (exec_modify_bind.mp hrun)
  obtain ⟨rfl, hacc⟩ := getLocalIp_acc hprobe
  by_cases hloc : loc.1 ≠ 0
  · rw [if_pos hloc] at hrun₁
    cases hrun₁
    rw [List.append_nil]
    exact hacc
  · rw [if_neg hloc] at hrun₁
    obtain ⟨h₃, rc', s₂, h₄, rfl, hdiscover, hrun₂⟩ := exec_of_bind hrun₁
    obtain ⟨h₅, _, s₃, h₆, rfl, hclose, hret⟩ := exec_of_bind hrun₂
    cases hret
    obtain ⟨b, -, howned, hacc'⟩ := discover_acquires fuel loc.2 _ _ _ _ hdiscover
    have hall : Acc (owned s₂) (h₁ ++ h₃) := by
      rw [howned, hnone]
      exact hacc.append le_rfl hacc'
    simpa [List.append_assoc] using closeAllSockets_acc hclose hall

/-- **The descriptors of discovery.**  When discovery returns, every descriptor has been closed,
and none twice, just if no answer of `Leaks` was given. -/
theorem fujiDiscoverThread_closed_iff
    (hrun : Exec (Discovery.fujiDiscoverThread fuel clientName) s h rc s') :
    AllClosed h ↔ ∀ e ∈ h, ¬ Leaks e := by
  have hacc := fujiDiscoverThread_acc hrun
  rw [allClosed_iff, ← hacc.balance_eq_zero_iff]
  exact and_iff_right hacc.covered

/-- A host whose calls succeed, and a camera that registers: `request` is what it sends to the
invite server. -/
def registering (request : Option (List UInt8)) : (op : SocketOp) → op.Ret
  | .socket .probe | .socket .register => (3 : Int)
  | .socket .connect => (4 : Int)
  | .socket .tether => (5 : Int)
  | .socket .broadcast => (6 : Int)
  | .socket _ => (7 : Int)
  | .accept _ _ => (8 : Int)
  | .getsockname _ => ((0, ascii "192.168.1.2") : Int × List UInt8)
  | .connect _ _ _ _ | .getSocketError _ => ((0, 0) : Int × Int)
  | .select read write _ => ((1, read ++ write) : Int × List Int)
  | .inetPton _ => (1 : Int)
  | .setsockopt _ _ | .bind _ _ _ _ | .listen _ _ _ => (0 : Int)
  | .recv .inviteClient _ _ => request.map fun bytes => ⟨bytes.take _, List.length_take_le _ _⟩
  | .recv .notify _ _ => some ⟨(ascii "HTTP/1.1 200 OK\r\n").take _, List.length_take_le _ _⟩
  | .recv _ _ _ => some ⟨(ascii "DISCOVER * HTTP/1.1\r\nDSCADDR: 192.168.1.3\r\n").take _,
      List.length_take_le _ _⟩
  | .send _ _ data | .sendto _ data _ _ => (data.length : Int)
  | .checkCancel => false
  | .readBehind => ([] : List UInt8)
  | .extraSocketSettings _ | .close _ | .storeBehind _ => ()

/-- The camera is registered, and nothing is left open. -/
theorem fujiDiscoverThread_closed_registering :
    ∃ h s', Exec (Discovery.fujiDiscoverThread 1 []) (Discovery.startState []) h fujiDRegistered s' ∧
      h.countP (OpensFd 7) = 2 ∧ AllClosed h := by
  have htrace : ((Discovery.fujiDiscoverThread 1 [] (Discovery.startState [])).trace
      (registering (some (ascii "DSCNAME: X-T4\r\n")))).map
        (fun r => (r.2.1, r.1.countP (OpensFd 7), decide (∀ e ∈ r.1, ¬ Leaks e))) =
      some (fujiDRegistered, 2, true) := by
    decide +kernel
  obtain ⟨⟨h, rc, s'⟩, hsome, heq⟩ := Option.map_eq_some_iff.mp htrace
  obtain ⟨rfl, hopens, hgood⟩ := by simpa only [Prod.mk.injEq, decide_eq_true_eq] using heq
  have hrun := (Prog.runs_of_trace hsome).1
  exact ⟨h, s', hrun, hopens, (fujiDiscoverThread_closed_iff hrun).mpr hgood⟩

/-- The connection to the invite server breaks down, and the port of registration stays bound. -/
theorem fujiDiscoverThread_not_closed : ¬ ∀ (fuel : ℕ) (clientName : List UInt8)
    (s : DiscoveryState) (h : SocketHistory) (rc : Int) (s' : DiscoveryState),
      Exec (Discovery.fujiDiscoverThread fuel clientName) s h rc s' → AllClosed h := by
  intro hall
  have htrace : ((Discovery.fujiDiscoverThread 1 [] (Discovery.startState [])).trace
      (registering none)).map (fun r => (r.1.countP (OpensFd 7), r.1.countP (ClosesFd 7))) =
      some (2, 1) := by
    decide +kernel
  obtain ⟨⟨h, rc, s'⟩, hsome, heq⟩ := Option.map_eq_some_iff.mp htrace
  have hclosed := (hall _ _ _ _ _ _ (Prog.runs_of_trace hsome).1).closed 7
  simp only [Prod.mk.injEq] at heq
  omega

end Thread

end Fuji
