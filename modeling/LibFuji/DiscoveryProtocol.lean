/-
The dialogues of discovery (`docs/autosave.md`).

A camera registers or connects in four steps: it sends a datagram, is connected to and notified at
the address it has given, answers, and is waited for on an invite server, where its request gets an
answer.  A camera that is tethered connects to the tether server itself.  `dialogue` is what a
history has of this.  `Fails` lists the failures: most put an end to discovery (`Thwarts`), but when
the read of a datagram or of the answer of the notify server fails, its result is taken for a great
length, and discovery may go on (`Unread`).

* `Yields` — what a program has said if nothing failed; its rules follow the calls and their checks;
* `fujiDiscoverThread_outcome` — discovery returns an error just if something has failed, and then
  no camera has got its answer; otherwise it has led one of the dialogues of `Outcome` to its end;
* `fujiDiscoverThread_recovered` — a camera that has registered has been notified at its address,
  and is described by its own words.
-/
import LibFuji.DiscoveryMessages
import LibFuji.DiscoverySockets

namespace Fuji

open Interaction
open Exif (ascii)

namespace Discovery

/-! ### What is said, and what fails -/

/-- The operations that are seen in the network. -/
def Spoken : SocketEvent → Bool
  | ⟨.connect .notify _ _ _, _⟩ | ⟨.bind _ _ _ _, _⟩ | ⟨.accept _ _, _⟩ | ⟨.recv _ _ _, _⟩
  | ⟨.send _ _ _, _⟩ | ⟨.sendto _ _ _ _, _⟩ => true
  | _ => false

/-- What is said in a history. -/
def dialogue (h : SocketHistory) : SocketHistory := h.filter Spoken

/-- A camera has got its answer. -/
def Answers : SocketEvent → Prop
  | ⟨.send u _ _, rc⟩ => (u = .inviteClient ∨ u = .tetherClient) ∧ 0 ≤ (rc : Int)
  | _ => False

/-- A read that fails, and is taken for a great length. -/
def Unread : SocketEvent → Prop
  | ⟨.recv u _ _, r⟩ => (u = .register ∨ u = .connect ∨ u = .notify) ∧ r.isNone = true
  | _ => False

/-- What puts an end to discovery: the failure of a call, a message without a value, and a request that
the camera rejects. -/
def Thwarts : SocketEvent → Prop
  | ⟨.socket u, fd⟩ => match u with
    | .probe => False
    | .register | .connect | .notify => (fd : Int) ≤ 0
    | _ => (fd : Int) < 0
  | ⟨.connect u _ _ _, r⟩ => (r : Int × Int).1 < 0 ∧ (u = .notify → (r : Int × Int).2 ≠ einprogress)
  | ⟨.getsockname _, r⟩ => (r : Int × List UInt8).1 < 0
  | ⟨.inetPton _, rc⟩ => (rc : Int) ≤ 0
  | ⟨.select _ write seconds, r⟩ =>
    if write ≠ [] then (r : Int × List Int).1 ≠ 1
    else if seconds = 1 then (r : Int × List Int).1 < 0 else (r : Int × List Int).1 ≤ 0
  | ⟨.getSocketError _, r⟩ => (r : Int × Int).1 < 0 ∨ (r : Int × Int).2 ≠ 0
  | ⟨.setsockopt _ _, rc⟩ => (rc : Int) < 0
  | ⟨.bind _ _ _ _, rc⟩ => (rc : Int) < 0
  | ⟨.listen _ _ _, rc⟩ => (rc : Int) < 0
  | ⟨.accept _ _, fd⟩ => (fd : Int) < 0
  | ⟨.recv u _ _, r⟩ => match u with
    | .inviteClient => ¬ Complete inviteField r
    | .tetherClient => ¬ Complete tetherField r
    | .notify => ∃ bytes ∈ r, bytes.val = [] ∨ ¬ ascii "HTTP/1.1 200 OK" <:+: cText bytes
    | _ => ∃ bytes ∈ r, bytes.val = [] ∨ ¬ Complete datagramField (some bytes)
  | ⟨.send u _ data, rc⟩ => match u with
    | .notify => (rc : Int) ≠ data.length
    | _ => (rc : Int) < 0
  | ⟨.sendto _ _ _ _, rc⟩ => (rc : Int) = -1
  | _ => False

/-- The failures, with those that the code may overlook. -/
def Fails (e : SocketEvent) : Prop := Thwarts e ∨ Unread e

/-- What a scanner leaves of a text. -/
def scanned (field : Field) (text : List UInt8) (info : DiscoverInfo) : DiscoverInfo :=
  (scanTokens field (tokens text) info).1

/-- Every finished run of `m` from `s` has gone through without a failure, and said and left what
`G` demands, or it has been broken off: something has failed, no camera has got an answer, and the
result is one of `B`.  If `c`, the failure may have been an earlier one. -/
def Yields {α : Type} (c : Prop) (m : DiscM α) (s : DiscoveryState)
    (G : SocketHistory → α → DiscoveryState → Prop) (B : α → Prop) : Prop :=
  ∀ h a s', Exec m s h a s' → ((∀ e ∈ h, ¬ Thwarts e) ∧ G (dialogue h) a s') ∨
    ((c ∨ ∃ e ∈ h, Thwarts e ∨ Unread e) ∧ (∀ e ∈ h, ¬ Answers e) ∧ B a)

/-- Every finished run of `m` gives no camera an answer, and has a result of `B`. -/
def Stops {α : Type} (m : DiscM α) (B : α → Prop) : Prop :=
  ∀ s h a s', Exec m s h a s' → (∀ e ∈ h, ¬ Answers e) ∧ B a

section Rules

variable {α β : Type} {m m' : DiscM α} {k : α → DiscM β} {c : Prop} {s : DiscoveryState}
  {G : SocketHistory → α → DiscoveryState → Prop} {B : α → Prop} {h h' : SocketHistory}
  {G' : SocketHistory → β → DiscoveryState → Prop} {B' : β → Prop}

theorem stops_pure {a : α} (hB : B a) : Stops (pure a) B := by
  rintro _ _ _ _ ⟨⟩
  exact ⟨List.forall_mem_nil _, hB⟩

theorem stops_bind (hm : Stops m B) (hk : ∀ a, B a → Stops (k a) B') : Stops (m >>= k) B' := by
  intro s h b s' hrun
  obtain ⟨h₁, a, s₁, h₂, rfl, hrun₁, hrun₂⟩ := exec_of_bind hrun
  obtain ⟨hsilent, hB⟩ := hm s h₁ a s₁ hrun₁
  obtain ⟨hsilent', hB'⟩ := hk a hB s₁ h₂ b s' hrun₂
  exact ⟨List.forall_mem_append.mpr ⟨hsilent, hsilent'⟩, hB'⟩

theorem stops_ask {op : SocketOp} {k : op.Ret → DiscM β} (hop : ∀ r, ¬ Answers ⟨op, r⟩)
    (hk : ∀ r, Stops (k r) B') : Stops (ask op >>= k) B' := by
  intro s h b s' hrun
  obtain ⟨r, h', rfl, hrun'⟩ := exec_call_bind.mp hrun
  obtain ⟨hsilent, hB⟩ := hk r s h' b s' hrun'
  exact ⟨List.forall_mem_cons.mpr ⟨hop r, hsilent⟩, hB⟩

/-- A message without a value. -/
theorem stops_scan {field : Field} {text : List UInt8} {k : Bool → DiscM β}
    (hmissing : (scanTokens field (tokens text) .zero).2 = false) (hk : Stops (k false) B') :
    Stops (scanText field text >>= k) B' := by
  intro s h b s' hrun
  have hrun' := exec_scanText_bind.mp hrun
  rw [scanTokens_complete _ _ .zero, hmissing] at hrun'
  exact hk _ h b s' hrun'

theorem stops_ite {p : Prop} [Decidable p] (hm : p → Stops m B) (hm' : ¬ p → Stops m' B) :
    Stops (if p then m else m') B := by
  split_ifs with hp
  · exact hm hp
  · exact hm' hp

theorem dialogue_append : dialogue (h ++ h') = dialogue h ++ dialogue h' := List.filter_append ..

/-- Answers are seen. -/
theorem Answers.mem_dialogue {e : SocketEvent} (hans : Answers e) (he : e ∈ h) :
    e ∈ dialogue h := by
  refine List.mem_filter.mpr ⟨he, ?_⟩
  obtain ⟨op, r⟩ := e
  cases op <;> first | rfl | exact hans.elim

theorem Yields.mono {G₁ : SocketHistory → α → DiscoveryState → Prop} {B₁ : α → Prop}
    (hm : Yields c m s G B) (hG : ∀ d a s', G d a s' → G₁ d a s') (hB : ∀ a, B a → B₁ a) :
    Yields c m s G₁ B₁ := fun h a s' hrun =>
  (hm h a s' hrun).imp (And.imp_right (hG _ a s')) (And.imp_right (And.imp_right (hB a)))

theorem yields_pure {a : α} (hG : G [] a s) : Yields c (pure a) s G B := by
  rintro _ _ _ ⟨⟩
  exact .inl ⟨List.forall_mem_nil _, hG⟩

/-- Something has failed before. -/
theorem yields_giveUp {a : α} (hc : c) (hB : B a) : Yields c (pure a) s G B := by
  rintro _ _ _ ⟨⟩
  exact .inr ⟨.inl hc, List.forall_mem_nil _, hB⟩

theorem yields_get {k : DiscoveryState → DiscM β} :
    Yields c (get >>= k) s G' B' ↔ Yields c (k s) s G' B' := Iff.rfl

theorem yields_modify {g : DiscoveryState → DiscoveryState} {k : PUnit → DiscM β} :
    Yields c (modify g >>= k) s G' B' ↔ Yields c (k ⟨⟩) (g s) G' B' := Iff.rfl

theorem yields_scan {field : Field} {text : List UInt8} {k : Bool → DiscM β} :
    Yields c (scanText field text >>= k) s G' B' ↔
      Yields c (k (scanTokens field (tokens text) s.info).2)
        { s with info := scanned field text s.info } G' B' := Iff.rfl

theorem yields_ite {p : Prop} [Decidable p] (hm : p → Yields c m s G B)
    (hm' : ¬ p → Yields c m' s G B) : Yields c (if p then m else m') s G B := by
  split_ifs with hp
  · exact hm hp
  · exact hm' hp

/-- A sequence goes on behind what has gone through, and stops behind what has been broken off.
When a camera has got its answer, nothing may fail any more. -/
theorem yields_seq (hm : Yields c m s G B)
    (hgood : ∀ d a s', G d a s' →
      ((∀ e ∈ d, ¬ Answers e) ∧
        Yields (c ∨ ∃ e ∈ d, Unread e) (k a) s' (fun d' => G' (d ++ d')) B') ∨
      Yields False (k a) s' (fun d' => G' (d ++ d')) fun _ => False)
    (hbad : ∀ a, B a → Stops (k a) B') : Yields c (m >>= k) s G' B' := by
  intro h b s' hrun
  obtain ⟨h₁, a, s₁, h₂, rfl, hrun₁, hrun₂⟩ := exec_of_bind hrun
  have happ {P : SocketEvent → Prop} (hP : ∀ e ∈ h₁, P e) (hP' : ∀ e ∈ h₂, P e) :
      ∀ e ∈ h₁ ++ h₂, P e := List.forall_mem_append.mpr ⟨hP, hP'⟩
  rcases hm h₁ a s₁ hrun₁ with ⟨hfine, hG⟩ | ⟨hgives, hsilent, hB⟩
  · rcases hgood _ a s₁ hG with ⟨hsilent, hk⟩ | hk
    · rcases hk h₂ b s' hrun₂ with ⟨hfine', hG'⟩ | ⟨hgives, hsilent', hB'⟩
      · refine .inl ⟨happ hfine hfine', ?_⟩
        rwa [dialogue_append]
      · have hsilent₁ : ∀ e ∈ h₁, ¬ Answers e := fun e he hans =>
          hsilent e (hans.mem_dialogue he) hans
        refine .inr ⟨?_, happ hsilent₁ hsilent', hB'⟩
        rcases hgives with (hc | ⟨e, he, hunread⟩) | ⟨e, he, hfail⟩
        · exact .inl hc
        · exact .inr ⟨e, List.mem_append_left _ (List.mem_of_mem_filter he), .inr hunread⟩
        · exact .inr ⟨e, List.mem_append_right _ he, hfail⟩
    · rcases hk h₂ b s' hrun₂ with ⟨hfine', hG'⟩ | ⟨-, -, ⟨⟩⟩
      refine .inl ⟨happ hfine hfine', ?_⟩
      rwa [dialogue_append]
  · obtain ⟨hsilent', hB'⟩ := hbad a hB s₁ h₂ b s' hrun₂
    refine .inr ⟨hgives.imp_right ?_, happ hsilent hsilent', hB'⟩
    exact fun ⟨e, he, hfail⟩ => ⟨e, List.mem_append_left _ he, hfail⟩

theorem yields_bind (hm : Yields c m s G B)
    (hgood : ∀ d a s', G d a s' → (∀ e ∈ d, ¬ Answers e) ∧
      Yields (c ∨ ∃ e ∈ d, Unread e) (k a) s' (fun d' => G' (d ++ d')) B')
    (hbad : ∀ a, B a → Stops (k a) B') : Yields c (m >>= k) s G' B' :=
  yields_seq hm (fun d a s' hG => .inl (hgood d a s' hG)) hbad

/-- A sequence whose second part cannot fail. -/
theorem yields_then (hm : Yields c m s G B)
    (hgood : ∀ d a s', G d a s' →
      Yields False (k a) s' (fun d' => G' (d ++ d')) fun _ => False)
    (hbad : ∀ a, B a → Stops (k a) B') : Yields c (m >>= k) s G' B' :=
  yields_seq hm (fun d a s' hG => .inr (hgood d a s' hG)) hbad

/-- A call. -/
theorem yields_ask {op : SocketOp} {k : op.Ret → DiscM β} (hop : ∀ r, ¬ Answers ⟨op, r⟩)
    (hgood : ∀ r, ¬ Thwarts ⟨op, r⟩ →
      Yields (c ∨ Unread ⟨op, r⟩) (k r) s (fun d => G' (dialogue [⟨op, r⟩] ++ d)) B')
    (hbad : ∀ r, Thwarts ⟨op, r⟩ → Stops (k r) B') : Yields c (ask op >>= k) s G' B' := by
  intro h b s' hrun
  obtain ⟨r, h', rfl, hrun'⟩ := exec_call_bind.mp hrun
  by_cases hfail : Thwarts ⟨op, r⟩
  · obtain ⟨hsilent, hB⟩ := hbad r hfail s h' b s' hrun'
    exact .inr ⟨.inr ⟨_, List.mem_cons_self, .inl hfail⟩,
      List.forall_mem_cons.mpr ⟨hop r, hsilent⟩, hB⟩
  rcases hgood r hfail h' b s' hrun' with ⟨hfine, hG⟩ | ⟨hgives, hsilent, hB⟩
  · refine .inl ⟨List.forall_mem_cons.mpr ⟨hfail, hfine⟩, ?_⟩
    rwa [← List.singleton_append, dialogue_append]
  · refine .inr ⟨?_, List.forall_mem_cons.mpr ⟨hop r, hsilent⟩, hB⟩
    rcases hgives with (hc | hunread) | ⟨e, he, hfail'⟩
    · exact .inl hc
    · exact .inr ⟨_, List.mem_cons_self, .inr hunread⟩
    · exact .inr ⟨e, List.mem_cons_of_mem _ he, hfail'⟩

theorem Yields.weaken {p : Prop} (hm : Yields c m s G B) : Yields (c ∨ p) m s G B :=
  fun h a s' hrun => (hm h a s' hrun).imp_right (And.imp_left (Or.imp_left .inl))

/-- A call that cannot fail. -/
theorem yields_tell {op : SocketOp} {k : op.Ret → DiscM β} (hop : ∀ r, ¬ Answers ⟨op, r⟩)
    (hfine : ∀ r, ¬ Thwarts ⟨op, r⟩)
    (hk : ∀ r, Yields c (k r) s (fun d => G' (dialogue [⟨op, r⟩] ++ d)) B') :
    Yields c (ask op >>= k) s G' B' :=
  yields_ask hop (fun r _ => (hk r).weaken) fun r hr => absurd hr (hfine r)

/-- A call that is checked. -/
theorem yields_check {op : SocketOp} {p : op.Ret → Prop} [∀ r, Decidable (p r)]
    {m k : op.Ret → DiscM β} (hop : ∀ r, ¬ Answers ⟨op, r⟩) (hp : ∀ r, Thwarts ⟨op, r⟩ ↔ p r)
    (hm : ∀ r, p r → Stops (m r) B')
    (hk : ∀ r, ¬ p r → Yields c (k r) s (fun d => G' (dialogue [⟨op, r⟩] ++ d)) B') :
    Yields c (ask op >>= fun r => if p r then m r else k r) s G' B' := by
  refine yields_ask hop (fun r hr => ?_) fun r hr => ?_
  · rw [if_neg (mt (hp r).mpr hr)]
    exact (hk r (mt (hp r).mpr hr)).weaken
  · rw [if_pos ((hp r).mp hr)]
    exact hm r ((hp r).mp hr)

/-- A call that is checked, and behind which nothing fails. -/
theorem yields_last {op : SocketOp} {p : op.Ret → Prop} [∀ r, Decidable (p r)] {b : β}
    {k : op.Ret → DiscM β} (hop : ∀ r, p r → ¬ Answers ⟨op, r⟩) (hp : ∀ r, Thwarts ⟨op, r⟩ ↔ p r)
    (hb : B' b)
    (hk : ∀ r, ¬ p r →
      Yields False (k r) s (fun d => G' (dialogue [⟨op, r⟩] ++ d)) fun _ => False) :
    Yields c (ask op >>= fun r => if p r then pure b else k r) s G' B' := by
  intro h a s' hrun
  obtain ⟨r, h', rfl, hrun'⟩ := exec_call_bind.mp hrun
  by_cases hr : p r
  · rw [if_pos hr] at hrun'
    cases hrun'
    exact .inr ⟨.inr ⟨_, List.mem_cons_self, .inl ((hp r).mpr hr)⟩,
      List.forall_mem_singleton.mpr (hop r hr), hb⟩
  · rw [if_neg hr] at hrun'
    rcases hk r hr h' a s' hrun' with ⟨hfine, hG⟩ | ⟨-, -, ⟨⟩⟩
    refine .inl ⟨List.forall_mem_cons.mpr ⟨mt (hp r).mp hr, hfine⟩, ?_⟩
    rwa [← List.singleton_append, dialogue_append]

end Rules

/-! ### The notify server -/

/-- The text that is read from a string, which may lack its terminator. -/
def IsText (buffer : Vector UInt8 64) (text : List UInt8) : Prop :=
  if 0 ∈ buffer.toList then text = cText buffer.toList else buffer.toList <+: text

/-- The text that is taken for the message received; a read that fails leaves what was there. -/
def Heard {size : ℕ} (r : Option { bytes : List UInt8 // bytes.length ≤ size })
    (text : List UInt8) : Prop :=
  ∀ bytes ∈ r, text = cText bytes

section Notify

variable {s : DiscoveryState} {c : Prop} {ip greeting : List UInt8} {port : ℕ} {fd : Int}

theorem readString_yields {buffer : Vector UInt8 64} : Yields c (readString buffer) s
    (fun d text s' => s' = s ∧ d = [] ∧ IsText buffer text) fun _ => False := by
  refine yields_ite (fun hzero => yields_pure ⟨rfl, rfl, (if_pos hzero).mpr rfl⟩) fun hzero => ?_
  refine yields_tell (fun _ => id) (fun _ => id) fun rest => yields_pure ⟨rfl, rfl, ?_⟩
  exact (if_neg hzero).mpr (List.prefix_append ..)

theorem stops_close {fd rc : Int} {B : Int → Prop} (hB : B rc) :
    Stops (do let _ ← ask (.close fd); return rc : DiscM Int) B :=
  stops_ask (fun _ => id) fun _ => stops_pure hB

theorem connectToNotifyServer_yields : Yields c (connectToNotifyServer ip port) s
    (fun d fd s' => s' = s ∧ 0 < fd ∧ ∃ r, d = [⟨.connect .notify fd ip port, r⟩]) (· ≤ 0) := by
  have hminus : (-1 : Int) ≤ 0 := by decide
  refine yields_ask (fun _ => id) (fun fd hfd => ?_) fun fd hfd => ?_
  · rw [if_neg fun hneg => hfd hneg.le]
    refine yields_tell (fun _ => id) (fun _ => id) fun _ => ?_
    refine yields_check (fun _ => id) (fun _ => Iff.rfl) (fun _ _ => stops_pure hminus)
      fun rc hrc => ?_
    refine yields_check (fun _ => id) (fun _ => by simp [Thwarts]) (fun _ _ => stops_pure hminus)
      fun r hr => ?_
    refine yields_ask (fun _ => id) (fun n hn => ?_) fun n hn => ?_
    · rw [if_pos (not_not.mp hn)]
      refine yields_ask (fun _ => id) (fun e he => ?_) fun e he => ?_
      · rw [if_neg (not_or.mp he).1, if_pos (not_not.mp (not_or.mp he).2)]
        exact yields_pure ⟨rfl, not_le.mp hfd, r, rfl⟩
      · refine stops_ite (fun _ => stops_pure hminus) fun hneg => ?_
        rw [if_neg (he.resolve_left hneg)]
        exact stops_close le_rfl
    · rw [if_neg hn]
      exact stops_close le_rfl
  · -- the descriptor 0 is only taken for an error when it is returned
    refine stops_ite (fun _ => stops_pure hminus) fun _ => stops_ask (fun _ => id) fun _ => ?_
    refine stops_ask (fun _ => id) fun _ => stops_ite (fun _ => stops_pure hminus) fun _ => ?_
    refine stops_ask (fun _ => id) fun _ => stops_ite (fun _ => stops_pure hminus) fun _ => ?_
    refine stops_ask (fun _ => id) fun _ => stops_ite (fun _ => ?_) fun _ => stops_close le_rfl
    refine stops_ask (fun _ => id) fun _ => stops_ite (fun _ => stops_pure hminus) fun _ => ?_
    exact stops_ite (fun _ => stops_pure hfd) fun _ => stops_close le_rfl

/-- The text in which the answer of the notify server is looked for. -/
theorem receiveAck_yields : Yields c (receiveAck fd) s
    (fun d ack s' => s' = s ∧ ∃ r text, d = [⟨.recv .notify fd 512, r⟩] ∧ ack = some text ∧
      (ascii "HTTP/1.1 200 OK" <:+: text ∨ r = none))
    (fun ack => ∀ text ∈ ack, ¬ ascii "HTTP/1.1 200 OK" <:+: text) := by
  refine yields_ask (by simp [Answers]) (fun r hr => ?_) fun r hr => ?_
  · cases r with
    | none =>
      refine yields_tell (fun _ => id) (fun _ => id) fun _ => ?_
      refine yields_tell (fun _ => id) (fun _ => id) fun text => ?_
      exact yields_pure ⟨rfl, none, text, rfl, rfl, .inr rfl⟩
    | some bytes =>
      have hbytes : bytes.val ≠ [] ∧ ascii "HTTP/1.1 200 OK" <:+: cText bytes := by
        simpa [Thwarts] using hr
      refine yields_ite (fun hlen => absurd (List.length_eq_zero_iff.mp hlen) hbytes.1) fun _ => ?_
      refine yields_ite (fun _ => yields_tell (fun _ => id) (fun _ => id) fun _ => ?_) fun _ => ?_
      · exact yields_pure ⟨rfl, some bytes, _, rfl, rfl, .inl hbytes.2⟩
      · exact yields_pure ⟨rfl, some bytes, _, rfl, rfl, .inl hbytes.2⟩
  · obtain ⟨bytes, rfl, hbytes⟩ := hr
    refine stops_ite (fun _ => stops_pure (by simp)) fun hlen => ?_
    have hreject : ∀ text ∈ some (cText bytes.val), ¬ ascii "HTTP/1.1 200 OK" <:+: text := by
      rintro _ ⟨⟩
      exact hbytes.resolve_left (mt List.length_eq_zero_iff.mpr hlen)
    refine stops_ite (fun _ => stops_ask (fun _ => id) fun _ => ?_) fun _ => ?_
    · exact stops_pure hreject
    · exact stops_pure hreject

/-- The request to the notify server, and its answer. -/
theorem notifyServer_yields : Yields c (notifyServer fd) s (fun d rc s' => s' = s ∧ rc = 0 ∧
    ∃ cameraIp clientName len ack, IsText s.info.cameraIp cameraIp ∧
      IsText s.info.clientName clientName ∧
      d = [⟨.send .notify fd (notifyText cameraIp clientName), len⟩, ⟨.recv .notify fd 512, ack⟩])
    (· = -1) := by
  refine yields_get.mpr (yields_bind readString_yields ?_ fun _ => False.elim)
  rintro _ cameraIp _ ⟨rfl, rfl, hip⟩
  refine ⟨List.forall_mem_nil _, yields_bind readString_yields ?_ fun _ => False.elim⟩
  rintro _ clientName _ ⟨rfl, rfl, hname⟩
  refine ⟨List.forall_mem_nil _, yields_check (by simp [Answers]) (fun _ => Iff.rfl)
    (fun _ _ => stops_pure rfl) fun len _ => ?_⟩
  refine yields_bind receiveAck_yields ?_ fun ack hack => ?_
  · rintro _ _ _ ⟨rfl, r, text, rfl, rfl, hok⟩
    refine ⟨by simp [Answers], yields_ite (fun _ => yields_pure ?_) fun hreject => ?_⟩
    · exact ⟨rfl, rfl, cameraIp, clientName, len, r, hip, hname, rfl⟩
    · -- the read has failed
      refine yields_giveUp (.inr ⟨_, List.mem_singleton_self _, ?_⟩) rfl
      exact ⟨.inr (.inr rfl), Option.isNone_iff_eq_none.mpr (hok.resolve_left hreject)⟩
  · cases ack with
    | none => exact stops_pure rfl
    | some text =>
      exact stops_ite (fun hok => absurd hok (hack text rfl)) fun _ => stops_pure rfl

/-- What is said to the notify server: the camera is connected to, and answers the request. -/
inductive Notifies (info : DiscoverInfo) : SocketHistory → Prop
  | mk {ip cameraIp clientName : List UInt8} {fd len : Int} {connected : Int × Int}
      {ack : Option { bytes : List UInt8 // bytes.length ≤ 512 }} (hip : IsText info.cameraIp ip)
      (hcamera : IsText info.cameraIp cameraIp) (hclient : IsText info.clientName clientName) :
      Notifies info [⟨.connect .notify fd ip fujiAutosaveNotify, connected⟩,
        ⟨.send .notify fd (notifyText cameraIp clientName), len⟩, ⟨.recv .notify fd 512, ack⟩]

/-- `hc`: an incomplete greeting has failed before. -/
theorem respondToDatagram_yields
    (hc : (scanTokens datagramField (tokens greeting) s.info).2 = false → c) :
    Yields c (respondToDatagram greeting) s
      (fun d rc s' => s' = { s with info := scanned datagramField greeting s.info } ∧ rc = 0 ∧
        Notifies s'.info d) (· = -1) := by
  refine yields_scan.mpr ?_
  refine yields_ite (fun hmissing => yields_giveUp (hc hmissing) rfl) fun _ => ?_
  refine yields_get.mpr (yields_bind readString_yields ?_ fun _ => False.elim)
  rintro _ ip _ ⟨rfl, rfl, hip⟩
  refine ⟨List.forall_mem_nil _, yields_bind connectToNotifyServer_yields ?_ fun fd hfd => ?_⟩
  · rintro _ fd _ ⟨rfl, hfd, connected, rfl⟩
    refine ⟨by simp [Answers], ?_⟩
    rw [if_neg (not_le.mpr hfd)]
    refine yields_bind notifyServer_yields ?_ fun rc hrc => stops_close hrc
    rintro _ rc _ ⟨rfl, rfl, cameraIp, clientName, len, ack, hcamera, hclient, rfl⟩
    refine ⟨by simp [Answers], yields_tell (fun _ => id) (fun _ => id) fun _ => yields_pure ?_⟩
    exact ⟨rfl, rfl, .mk hip hcamera hclient⟩
  · rw [if_pos hfd]
    exact stops_pure rfl

end Notify

/-! ### The invite server -/

section Invite

variable {s : DiscoveryState} {c : Prop} {port : ℕ} {serverFd clientFd : Int}

/-- What is said on the invite server: a camera connects, and its request is answered. -/
inductive Invites (port : ℕ) (info : DiscoverInfo) : SocketHistory → DiscoverInfo → Prop
  | mk {serverFd clientFd bound sent : Int}
      {request : { bytes : List UInt8 // bytes.length ≤ 1023 }} :
      Invites port info [⟨.bind .invite serverFd inaddrAny port, bound⟩,
        ⟨.accept .invite serverFd, clientFd⟩, ⟨.recv .inviteClient clientFd 1023, some request⟩,
        ⟨.send .inviteClient clientFd (inviteResponse port), sent⟩]
        (scanned inviteField (cText request) info)

/-- The request of a client, and its answer. -/
theorem answerInvite_yields (hport : port = fujiAutosaveRegister ∨ port = fujiAutosaveConnect) :
    Yields c (answerInvite port serverFd clientFd) s
      (fun d rc s' => rc = 0 ∧ ∃ request sent,
        s' = { s with info := scanned inviteField (cText request.val) s.info } ∧
        d = [⟨.recv .inviteClient clientFd 1023, some request⟩,
          ⟨.send .inviteClient clientFd (inviteResponse port), sent⟩]) (· = -1) := by
  refine yields_ask (by simp [Answers]) (fun r hr => ?_) fun r hr => ?_
  · cases r with
    | none => exact absurd id hr
    | some request =>
      refine yields_scan.mpr ?_
      rw [scanTokens_complete _ _ .zero, if_neg (by simp [show _ = true from not_not.mp hr]),
        if_neg (by omega)]
      refine yields_last (fun _ hsent hans => absurd hans.2 (not_le.mpr hsent))
        (fun _ => Iff.rfl) rfl
        fun sent _ => ?_
      refine yields_tell (fun _ => id) (fun _ => id) fun _ => ?_
      refine yields_tell (fun _ => id) (fun _ => id) fun _ => ?_
      exact yields_pure ⟨rfl, request, sent, rfl, rfl⟩
  · cases r with
    | none => exact stops_pure rfl
    | some request => exact stops_scan (Bool.not_eq_true _ ▸ hr) (stops_pure rfl)

theorem startInviteServer_yields
    (hport : port = fujiAutosaveRegister ∨ port = fujiAutosaveConnect) :
    Yields c (startInviteServer port) s (fun d rc s' => rc = 0 ∧
      ∃ info, s' = { s with info := info } ∧ Invites port s.info d info) (· = -1) := by
  refine yields_check (fun _ => id) (fun _ => Iff.rfl) (fun _ _ => stops_pure rfl)
    fun serverFd _ => ?_
  refine yields_tell (fun _ => id) (fun _ => id) fun _ => ?_
  refine yields_check (fun _ => id) (fun _ => Iff.rfl) (fun _ _ => stops_pure rfl) fun _ _ => ?_
  refine yields_check (fun _ => id) (fun _ => Iff.rfl) (fun _ _ => stops_pure rfl) fun bound _ => ?_
  refine yields_check (fun _ => id) (fun _ => Iff.rfl) (fun _ _ => stops_pure rfl) fun _ _ => ?_
  refine yields_check (fun _ => id) (fun _ => Iff.rfl) (fun _ _ => stops_close rfl) fun _ _ => ?_
  refine yields_check (fun _ => id) (fun _ => Iff.rfl) (fun _ _ => stops_pure rfl)
    fun clientFd _ => ?_
  refine (answerInvite_yields hport).mono ?_ fun _ => id
  rintro d rc s' ⟨rfl, request, sent, rfl, rfl⟩
  exact ⟨rfl, _, rfl, .mk⟩

end Invite


/-! ### The turns of the loop -/

/-- How a camera registers or connects: a datagram is heard on the descriptor `fd`, the notify
server of its sender is told, and the camera is waited for on the invite server. -/
inductive Registers (u : Sock) (fd : Int) (port : ℕ) (info : DiscoverInfo) :
    SocketHistory → DiscoverInfo → Prop
  | mk {greeting : List UInt8} {r : Option { bytes : List UInt8 // bytes.length ≤ 1023 }}
      {d d' : SocketHistory} {info' : DiscoverInfo} (hgreeting : Heard r greeting)
      (hnotify : Notifies
        (scanned datagramField greeting { info with transport := .autosave }) d)
      (hinvite : Invites port
        (scanned datagramField greeting { info with transport := .autosave }) d' info') :
      Registers u fd port info (⟨.recv u fd 1023, r⟩ :: (d ++ d')) info'

/-- How a camera is tethered: it connects to the tether server, and its message is answered. -/
inductive Tethers (fd : Int) (info : DiscoverInfo) : SocketHistory → DiscoverInfo → Prop
  | mk {clientFd sent : Int} {request : { bytes : List UInt8 // bytes.length ≤ 1023 }} :
      Tethers fd info [⟨.accept .tether fd, clientFd⟩,
        ⟨.recv .tetherClient clientFd 1023, some request⟩,
        ⟨.send .tetherClient clientFd (ascii "HTTP/1.1 200 OK\r\n" ++ [0]), sent⟩]
        (scanned tetherField (cText request) { info with transport := .wirelessTether })

section Turns

variable {s : DiscoveryState} {c : Prop} {u : Sock} {port : ℕ} {fd : Int}
  {greeting localIp : List UInt8}

theorem Notifies.silent {info : DiscoverInfo} {d : SocketHistory} (hd : Notifies info d) :
    ∀ e ∈ d, ¬ Answers e := by
  cases hd with
  | mk => simp [Answers]

/-- What `accept` says for a greeting: the notify server is answered, and the invite server asked.
`finish` is what it adds to the information. -/
def Accepts (port : ℕ) (finish : DiscoverInfo → DiscoverInfo) (accept : List UInt8 → DiscM Int) :
    Prop :=
  ∀ c greeting s, ((scanTokens datagramField (tokens greeting) s.info).2 = false → c) →
    Yields c (accept greeting) s (fun d rc s' => rc = 0 ∧ ∃ d₁ d₂ info', d = d₁ ++ d₂ ∧
      s' = { s with info := finish info' } ∧ Notifies (scanned datagramField greeting s.info) d₁ ∧
      Invites port (scanned datagramField greeting s.info) d₂ info') (· = -1)

theorem acceptDatagram_accepts
    (hport : port = fujiAutosaveRegister ∨ port = fujiAutosaveConnect) :
    Accepts port id (acceptDatagram port) := by
  intro c greeting s hc
  refine yields_bind (respondToDatagram_yields hc) ?_ fun rc hrc => ?_
  · rintro d₁ rc _ ⟨rfl, rfl, hd₁⟩
    refine ⟨hd₁.silent, (startInviteServer_yields hport).weaken.mono ?_ fun _ => id⟩
    rintro d₂ _ _ ⟨rfl, info', rfl, hd₂⟩
    exact ⟨rfl, d₁, d₂, info', rfl, rfl, hd₁, hd₂⟩
  · rw [hrc]
    exact stops_pure rfl

theorem acceptConnect_accepts : Accepts fujiAutosaveConnect
    (fun info => { info with cameraPort := fujiCmdIpPort }) acceptConnect := by
  intro c greeting s hc
  refine yields_then (acceptDatagram_accepts (.inr rfl) c greeting s hc) ?_ fun rc hrc => ?_
  · rintro d rc _ ⟨rfl, d₁, d₂, info', rfl, rfl, hnotify, hinvite⟩
    exact yields_modify.mpr
      (yields_pure ⟨rfl, d₁, d₂, info', List.append_nil _, rfl, hnotify, hinvite⟩)
  · rw [hrc]
    exact stops_pure rfl

/-- The text that is taken for the datagram; if the read has failed, that is overlooked. -/
theorem receiveGreeting_yields (hu : u = .register ∨ u = .connect) :
    Yields c (receiveGreeting u fd) s (fun d text s' =>
      s' = { s with info := { s.info with transport := .autosave } } ∧
      ∃ (r : Option { bytes : List UInt8 // bytes.length ≤ 1023 }) (greeting : List UInt8),
        d = [⟨.recv u fd 1023, r⟩] ∧ text = some greeting ∧ Heard r greeting ∧
        (r ≠ none → (scanTokens datagramField (tokens greeting) .zero).2 = true))
      (fun text => ∀ greeting ∈ text,
        (scanTokens datagramField (tokens greeting) .zero).2 = false) := by
  refine yields_modify.mpr (yields_ask ?_ (fun r hr => ?_) fun r hr => ?_)
  · rcases hu with rfl | rfl <;> simp [Answers]
  · cases r with
    | none =>
      refine yields_tell (fun _ => id) (fun _ => id) fun _ => ?_
      refine yields_tell (fun _ => id) (fun _ => id) fun text => yields_pure ?_
      exact ⟨rfl, none, text, rfl, rfl, by simp [Heard], by simp⟩
    | some bytes =>
      have hbytes : bytes.val ≠ [] ∧ Complete datagramField (some bytes) := by
        rcases hu with rfl | rfl <;> simpa [Thwarts] using hr
      refine yields_ite (fun hlen => absurd (List.length_eq_zero_iff.mp hlen) hbytes.1) fun _ => ?_
      exact yields_pure ⟨rfl, some bytes, _, rfl, rfl, by simp [Heard], fun _ => hbytes.2⟩
  · have hbytes : ∃ bytes ∈ (r : Option { bytes : List UInt8 // bytes.length ≤ 1023 }),
        bytes.val = [] ∨ ¬ Complete datagramField (some bytes) := by
      rcases hu with rfl | rfl <;> exact hr
    obtain ⟨bytes, rfl, hbytes⟩ := hbytes
    refine stops_ite (fun _ => stops_pure (by simp)) fun hlen => stops_pure ?_
    rintro _ ⟨⟩
    exact Bool.not_eq_true _ ▸ hbytes.resolve_left (mt List.length_eq_zero_iff.mpr hlen)

theorem acceptDatagram_missing
    (hmissing : (scanTokens datagramField (tokens greeting) .zero).2 = false) :
    Stops (acceptDatagram port greeting) (· = -1) := by
  refine stops_bind (B := (· = -1)) (stops_scan hmissing (stops_pure rfl)) fun rc hrc => ?_
  rw [hrc]
  exact stops_pure rfl

theorem acceptConnect_missing
    (hmissing : (scanTokens datagramField (tokens greeting) .zero).2 = false) :
    Stops (acceptConnect greeting) (· = -1) := by
  refine stops_bind (acceptDatagram_missing hmissing) fun rc hrc => ?_
  rw [hrc]
  exact stops_pure rfl

/-- A datagram that is accepted. -/
theorem onDatagram_yields {accept : List UInt8 → DiscM Int} {result : Int}
    {finish : DiscoverInfo → DiscoverInfo} (hu : u = .register ∨ u = .connect)
    (haccept : Accepts port finish accept)
    (hmissing : ∀ greeting, (scanTokens datagramField (tokens greeting) .zero).2 = false →
      Stops (accept greeting) (· = -1)) :
    Yields c (onDatagram u fd accept result) s (fun d rc s' => rc = result ∧
      ∃ info', s' = { s with info := finish info' } ∧ Registers u fd port s.info d info')
      (· = -1) := by
  refine yields_bind (receiveGreeting_yields hu) ?_ fun text htext => ?_
  · rintro _ _ _ ⟨rfl, r, greeting, rfl, rfl, hheard, hcomplete⟩
    refine ⟨by rcases hu with rfl | rfl <;> simp [Answers], ?_⟩
    refine yields_then (haccept _ greeting _ fun hmiss => ?_) ?_ fun rc hrc => ?_
    · -- the read has failed
      rw [scanTokens_complete _ _ .zero] at hmiss
      refine .inr ⟨_, List.mem_singleton_self _, hu.imp_right .inl, ?_⟩
      rw [Option.isNone_iff_eq_none]
      by_contra hne
      exact absurd (hcomplete hne) (by simp [hmiss])
    · rintro _ rc _ ⟨rfl, d₁, d₂, info', rfl, rfl, hnotify, hinvite⟩
      have hd : Registers u fd port s.info (⟨.recv u fd 1023, r⟩ :: (d₁ ++ d₂)) info' :=
        .mk hheard hnotify hinvite
      exact yields_pure ⟨rfl, info', rfl, by simpa using hd⟩
    · rw [hrc]
      exact stops_pure rfl
  · cases text with
    | none => exact stops_pure rfl
    | some greeting =>
      refine stops_bind (hmissing greeting (htext greeting rfl)) fun rc hrc => ?_
      rw [hrc]
      exact stops_pure rfl

/-! A camera that is tethered. -/

theorem fujiTetherAccept_yields : Yields c (fujiTetherAccept fd) s (fun d rc s' => rc = 0 ∧
    ∃ clientFd request sent,
      s' = { s with info := scanned tetherField (cText request.val) s.info } ∧
      d = [⟨.accept .tether fd, clientFd⟩, ⟨.recv .tetherClient clientFd 1023, some request⟩,
        ⟨.send .tetherClient clientFd (ascii "HTTP/1.1 200 OK\r\n" ++ [0]), sent⟩]) (· = -1) := by
  refine yields_check (fun _ => id) (fun _ => Iff.rfl) (fun _ _ => stops_pure rfl)
    fun clientFd _ => ?_
  refine yields_ask (by simp [Answers]) (fun r hr => ?_) fun r hr => ?_
  · cases r with
    | none => exact absurd id hr
    | some request =>
      refine yields_scan.mpr ?_
      rw [scanTokens_complete _ _ .zero, if_neg (by simp [show _ = true from not_not.mp hr])]
      refine yields_last (fun _ hsent hans => absurd hans.2 (not_le.mpr hsent))
        (fun _ => Iff.rfl) rfl
        fun sent _ => ?_
      refine yields_tell (fun _ => id) (fun _ => id) fun _ => ?_
      exact yields_pure ⟨rfl, clientFd, request, sent, rfl, rfl⟩
  · cases r with
    | none => exact stops_pure rfl
    | some request => exact stops_scan (Bool.not_eq_true _ ▸ hr) (stops_pure rfl)

theorem onTether_yields : Yields c (onTether fd) s (fun d rc s' => rc = fujiDGoPtp ∧
    ∃ info', s' = { s with info := info' } ∧ Tethers fd s.info d info') (· = -1) := by
  refine yields_modify.mpr (yields_then fujiTetherAccept_yields ?_ fun rc hrc => ?_)
  · rintro _ rc _ ⟨rfl, clientFd, request, sent, rfl, rfl⟩
    exact yields_pure ⟨rfl, _, rfl, .mk⟩
  · rw [hrc]
    exact stops_pure rfl

/-! The loop. -/

/-- The announcement of this host. -/
def announcement (localIp : List UInt8) : List UInt8 :=
  ascii "DISCOVERY * HTTP/1.1\r\nHOST: " ++ localIp ++ ascii "\r\nMX: 5\r\nSERVICE: PCSS/1.0\r\n"

/-- Nothing is said but this host announced. -/
def Announces (localIp : List UInt8) (fd : Int) (d : SocketHistory) : Prop :=
  ∀ e ∈ d, e.1 = .sendto fd (announcement localIp) (ascii "192.168.1.255") fujiPcssBroadcast

theorem Announces.silent {d : SocketHistory} (hd : Announces localIp fd d) :
    ∀ e ∈ d, ¬ Answers e := by
  rintro ⟨op, r⟩ he
  obtain rfl : op = _ := hd _ he
  exact id

theorem broadcast_yields : Yields c (broadcast fd localIp) s
    (fun d rc s' => rc = 0 ∧ s' = s ∧ Announces localIp fd d) (· = -1) := by
  refine yields_ite (fun _ => ?_) fun _ => yields_pure ⟨rfl, rfl, List.forall_mem_nil _⟩
  refine yields_check (fun _ => id) (fun _ => Iff.rfl) (fun _ _ => stops_pure rfl) fun rc _ => ?_
  exact yields_pure ⟨rfl, rfl, List.forall_mem_singleton.mpr rfl⟩

/-- How the loop ends: the dialogue with a camera, the result, and the information. -/
inductive Turn (s : DiscoveryState) : SocketHistory → Int → DiscoverInfo → Prop
  | cancelled : Turn s [] fujiDCanceled s.info
  | registered {d : SocketHistory} {info : DiscoverInfo}
      (hd : Registers .register s.regFd fujiAutosaveRegister s.info d info) :
      Turn s d fujiDRegistered info
  | connected {d : SocketHistory} {info : DiscoverInfo}
      (hd : Registers .connect s.conFd fujiAutosaveConnect s.info d info) :
      Turn s d fujiDGoPtp { info with cameraPort := fujiCmdIpPort }
  | tethered {d : SocketHistory} {info : DiscoverInfo} (hd : Tethers s.tetherFd s.info d info) :
      Turn s d fujiDGoPtp info

theorem stateIdle_yields : Yields c (stateIdle localIp) s (fun d rc s' =>
    ∃ d₁ d₂, d = d₁ ++ d₂ ∧ Announces localIp s.pcssFd d₁ ∧
      (rc = 0 ∧ s' = s ∧ d₂ = [] ∨ ∃ info', s' = { s with info := info' } ∧ Turn s d₂ rc info'))
    (· = -1) := by
  refine yields_get.mpr (yields_bind broadcast_yields ?_ fun rc hrc => ?_)
  · rintro d₁ rc s ⟨rfl, rfl, hd₁⟩
    refine ⟨hd₁.silent, ?_⟩
    refine yields_check (fun _ => id) (fun _ => Iff.rfl) (fun _ _ => stops_pure rfl)
      fun ready _ => ?_
    have hregister : Accepts fujiAutosaveRegister id acceptRegister :=
      acceptDatagram_accepts (.inl rfl)
    refine yields_ite (fun _ => ?_) fun _ => yields_ite (fun _ => ?_) fun _ => ?_
    · refine (onDatagram_yields (.inl rfl) hregister
        fun _ => acceptDatagram_missing).mono ?_ fun _ => id
      rintro d₂ _ _ ⟨rfl, info', rfl, hd₂⟩
      exact ⟨d₁, d₂, rfl, hd₁, .inr ⟨info', rfl, .registered hd₂⟩⟩
    · refine (onDatagram_yields (.inr rfl) acceptConnect_accepts
        fun _ => acceptConnect_missing).mono ?_ fun _ => id
      rintro d₂ _ _ ⟨rfl, info', rfl, hd₂⟩
      exact ⟨d₁, d₂, rfl, hd₁, .inr ⟨_, rfl, .connected hd₂⟩⟩
    refine yields_ite (fun _ => ?_) fun _ => ?_
    · refine onTether_yields.mono ?_ fun _ => id
      rintro d₂ _ _ ⟨rfl, info', rfl, hd₂⟩
      exact ⟨d₁, d₂, rfl, hd₁, .inr ⟨info', rfl, .tethered hd₂⟩⟩
    · refine yields_tell (fun _ => id) (fun _ => id) fun cancelled => ?_
      refine yields_ite (fun _ => ?_) fun _ => ?_
      · exact yields_pure ⟨d₁, [], rfl, hd₁, .inr ⟨s.info, rfl, .cancelled⟩⟩
      · exact yields_pure ⟨d₁, [], rfl, hd₁, .inl ⟨rfl, rfl, rfl⟩⟩
  · rw [if_pos (by simp [hrc])]
    exact stops_pure rfl

theorem Turn.ne_zero {d : SocketHistory} {rc : Int} {info : DiscoverInfo} (ht : Turn s d rc info) :
    rc ≠ 0 := by
  cases ht with
  | cancelled | registered _ | connected _ | tethered _ => decide

theorem idleLoop_yields (n : ℕ) : Yields c (idleLoop localIp n) s (fun d rc s' =>
    ∃ d₁ d₂ info', d = d₁ ++ d₂ ∧ Announces localIp s.pcssFd d₁ ∧ s' = { s with info := info' } ∧
      Turn s d₂ rc info') (· = -1) := by
  induction n generalizing c with
  | zero =>
    intro h rc s' hrun
    cases hrun
  | succ n ih =>
    refine yields_seq stateIdle_yields ?_ fun rc hrc => ?_
    · rintro _ rc _ ⟨d₁, d₂, rfl, hd₁, ⟨rfl, rfl, rfl⟩ | ⟨info', rfl, hturn⟩⟩
      · -- another turn
        rw [List.append_nil]
        refine .inl ⟨hd₁.silent, ih.mono ?_ fun _ => id⟩
        rintro _ rc _ ⟨d₁', d₂, info', rfl, hd₁', rfl, hturn⟩
        refine ⟨d₁ ++ d₁', d₂, info', (List.append_assoc ..).symm, ?_, rfl, hturn⟩
        exact List.forall_mem_append.mpr ⟨hd₁, hd₁'⟩
      · rw [if_neg hturn.ne_zero]
        exact .inr (yields_pure ⟨d₁, d₂, info', List.append_nil _, hd₁, rfl, hturn⟩)
    · rw [if_neg (by simp [hrc])]
      exact stops_pure hrc

end Turns

/-! ### The thread -/

section Thread

variable {s : DiscoveryState} {c : Prop} {u : Sock} {port : ℕ} {fd : Int}
  {localIp clientName : List UInt8}

theorem getLocalIp_yields : Yields c getLocalIp s
    (fun d r s' => s' = s ∧ d = [] ∧ r.1 = 0) (fun r => r.1 < 0) := by
  refine yields_tell (fun _ => id) (fun _ => id) fun sock => ?_
  refine yields_tell (fun _ => id) (fun _ => id) fun _ => ?_
  refine yields_check (fun _ => id) (fun _ => by simp [Thwarts]) (fun r hr => stops_pure hr)
    fun _ _ => ?_
  refine yields_check (fun _ => id) (fun _ => Iff.rfl) (fun r hr => stops_pure hr) fun name _ => ?_
  exact yields_tell (fun _ => id) (fun _ => id) fun _ => yields_pure ⟨rfl, rfl, rfl⟩

theorem openDgramSocket_yields (hu : u = .register ∨ u = .connect) :
    Yields c (openDgramSocket u port) s (fun d fd s' => s' = s ∧ 0 < fd ∧ ∃ bound,
      d = [⟨.bind u fd inaddrAny port, bound⟩]) (· ≤ 0) := by
  have hfails {fd : Int} : Thwarts ⟨.socket u, fd⟩ ↔ fd ≤ 0 := by rcases hu with rfl | rfl <;> rfl
  refine yields_ask (fun _ => id) (fun fd hfd => ?_) fun fd hfd => ?_
  · have hpos := not_le.mp (mt hfails.mpr hfd)
    rw [if_neg (not_lt.mpr hpos.le)]
    refine (yields_tell (fun _ => id) (fun _ => id) fun _ => ?_).weaken
    refine yields_check (fun _ => id) (fun _ => Iff.rfl) (fun _ _ => stops_close (by decide))
      fun bound _ => ?_
    exact yields_pure ⟨rfl, hpos, bound, rfl⟩
  · -- the descriptor 0 is only taken for an error when it is returned
    refine stops_ite (fun _ => stops_pure (by decide)) fun _ => stops_ask (fun _ => id) fun _ => ?_
    refine stops_ask (fun _ => id) fun _ => stops_ite (fun _ => stops_close (by decide)) fun _ => ?_
    exact stops_pure (hfails.mp hfd)

theorem fujiOpenTetherServer_yields : Yields c (fujiOpenTetherServer localIp) s
    (fun d fd s' => s' = s ∧ 0 ≤ fd ∧ ∃ bound,
      d = [⟨.bind .tether fd localIp fujiTether, bound⟩]) (· < 0) := by
  have hminus : (-1 : Int) < 0 := by decide
  refine yields_check (fun _ => id) (fun _ => Iff.rfl) (fun _ _ => stops_pure hminus)
    fun fd hfd => ?_
  refine yields_tell (fun _ => id) (fun _ => id) fun _ => ?_
  refine yields_check (fun _ => id) (fun _ => Iff.rfl) (fun _ _ => stops_pure hminus) fun _ _ => ?_
  refine yields_check (fun _ => id) (fun _ => Iff.rfl) (fun _ _ => stops_pure hminus)
    fun bound _ => ?_
  refine yields_check (fun _ => id) (fun _ => Iff.rfl) (fun _ _ => stops_pure hminus) fun _ _ => ?_
  exact yields_pure ⟨rfl, not_lt.mp hfd, bound, rfl⟩

theorem openPcss_yields :
    Yields c openPcss s (fun d fd s' => s' = s ∧ 0 ≤ fd ∧ d = []) (· < 0) := by
  have hminus : (-1 : Int) < 0 := by decide
  refine yields_ask (fun _ => id) (fun fd hfd => Yields.weaken ?_) fun fd hfd => ?_
  · refine yields_tell (fun _ => id) (fun _ => id) fun _ => ?_
    refine yields_check (fun _ => id) (fun _ => Iff.rfl) (fun _ _ => stops_pure hminus)
      fun _ _ => ?_
    exact yields_pure ⟨rfl, not_lt.mp hfd, rfl⟩
  · refine stops_ask (fun _ => id) fun _ => stops_ask (fun _ => id) fun _ => ?_
    exact stops_ite (fun _ => stops_pure hminus) fun _ => stops_pure hfd

/-- The sockets that are opened, and the ports they are bound to. -/
inductive Opens (localIp : List UInt8) (s : DiscoveryState) : SocketHistory → Prop
  | mk {bound bound' bound'' : Int} : Opens localIp s [
      ⟨.bind .register s.regFd inaddrAny fujiAutosaveRegister, bound⟩,
      ⟨.bind .connect s.conFd inaddrAny fujiAutosaveConnect, bound'⟩,
      ⟨.bind .tether s.tetherFd localIp fujiTether, bound''⟩]

/-- A descriptor that is opened and kept. -/
theorem keep_yields {m : DiscM Int} {set : Int → DiscoveryState → DiscoveryState} {p : Int → Prop}
    [DecidablePred p] {G : SocketHistory → Int → Prop}
    (hm : Yields c m s (fun d fd s' => s' = s ∧ ¬ p fd ∧ G d fd) p) :
    Yields c (do
      let fd ← m
      modify (set fd)
      if p fd then return -1 else return 0) s
      (fun d rc s' => rc = 0 ∧ ∃ fd, s' = set fd s ∧ G d fd) (· = -1) := by
  refine yields_then hm ?_ fun fd hfd => ?_
  · rintro d fd _ ⟨rfl, hfd, hG⟩
    refine yields_modify.mpr ?_
    rw [if_neg hfd]
    exact yields_pure ⟨rfl, fd, rfl, by rwa [List.append_nil]⟩
  · rintro s h rc s' hrun
    have hrun' := exec_modify_bind.mp hrun
    rw [if_pos hfd] at hrun'
    cases hrun'
    exact ⟨List.forall_mem_nil _, rfl⟩

theorem tryRegister_yields (hs : s.regFd = 0) : Yields c tryRegister s (fun d rc s' => rc = 0 ∧
    ∃ fd, s' = { s with regFd := fd } ∧
      ∃ bound, d = [⟨.bind .register fd inaddrAny fujiAutosaveRegister, bound⟩]) (· = -1) := by
  refine yields_get.mpr (yields_ite (fun _ => keep_yields ?_) fun hne => absurd hs hne)
  exact (openDgramSocket_yields (.inl rfl)).mono
    (fun _ _ _ => And.imp_right (And.imp_left not_le.mpr)) fun _ => id

theorem tryConnect_yields (hs : s.conFd = 0) : Yields c tryConnect s (fun d rc s' => rc = 0 ∧
    ∃ fd, s' = { s with conFd := fd } ∧
      ∃ bound, d = [⟨.bind .connect fd inaddrAny fujiAutosaveConnect, bound⟩]) (· = -1) := by
  refine yields_get.mpr (yields_ite (fun _ => keep_yields ?_) fun hne => absurd hs hne)
  exact (openDgramSocket_yields (.inr rfl)).mono
    (fun _ _ _ => And.imp_right (And.imp_left not_le.mpr)) fun _ => id

theorem tryTether_yields (hs : s.tetherFd = 0) : Yields c (tryTether localIp) s (fun d rc s' =>
    rc = 0 ∧ ∃ fd, s' = { s with tetherFd := fd } ∧
      ∃ bound, d = [⟨.bind .tether fd localIp fujiTether, bound⟩]) (· = -1) := by
  refine yields_get.mpr (yields_ite (fun _ => keep_yields ?_) fun hne => absurd hs hne)
  exact fujiOpenTetherServer_yields.mono (fun _ _ _ => And.imp_right (And.imp_left not_lt.mpr))
    fun _ => id

theorem tryPcss_yields (hs : s.pcssFd = 0) : Yields c tryPcss s (fun d rc s' => rc = 0 ∧
    ∃ fd, s' = { s with pcssFd := fd } ∧ d = []) (· = -1) := by
  refine yields_get.mpr (yields_ite (fun _ => keep_yields ?_) fun hne => absurd hs hne)
  exact openPcss_yields.mono (fun _ _ _ => And.imp_right (And.imp_left not_lt.mpr)) fun _ => id

theorem tryConnectAllSockets_yields :
    Yields c (tryConnectAllSockets localIp) (startState clientName)
      (fun d rc s' => rc = 0 ∧ s'.info = (startState clientName).info ∧ Opens localIp s' d)
      (· = -1) := by
  have hstop {rc : Int} {m : DiscM Int} (hrc : rc = -1) :
      Stops (if rc ≠ 0 then return rc else m) (· = -1) := by
    rw [if_pos (by simp [hrc])]
    exact stops_pure hrc
  refine yields_bind (tryRegister_yields rfl) ?_ fun rc hrc => hstop hrc
  rintro _ _ _ ⟨rfl, regFd, rfl, bound, rfl⟩
  refine ⟨by simp [Answers], yields_bind (tryConnect_yields rfl) ?_ fun rc hrc => hstop hrc⟩
  rintro _ _ _ ⟨rfl, conFd, rfl, bound', rfl⟩
  refine ⟨by simp [Answers], yields_bind (tryTether_yields rfl) ?_ fun rc hrc => hstop hrc⟩
  rintro _ _ _ ⟨rfl, tetherFd, rfl, bound'', rfl⟩
  refine ⟨by simp [Answers], (tryPcss_yields rfl).mono ?_ fun _ => id⟩
  rintro _ _ _ ⟨rfl, pcssFd, rfl, rfl⟩
  exact ⟨rfl, rfl, .mk⟩

/-- What is said when nothing fails: the ports are bound, this host is announced, and a camera is
spoken to, unless discovery is cancelled. -/
inductive Outcome (clientName : List UInt8) : SocketHistory → Int → DiscoverInfo → Prop
  | mk {localIp : List UInt8} {s : DiscoveryState} {d₁ d₂ d₃ : SocketHistory} {rc : Int}
      {info : DiscoverInfo} (hs : s.info = (startState clientName).info)
      (hopen : Opens localIp s d₁) (hannounce : Announces localIp s.pcssFd d₂)
      (hturn : Turn s d₃ rc info) : Outcome clientName (d₁ ++ (d₂ ++ d₃)) rc info

theorem closeAllSockets_yields : Yields False closeAllSockets s
    (fun d _ s' => d = [] ∧ s' = s) fun _ => False := by
  have hclose {fd : Int} {s : DiscoveryState} :
      Yields False (closeSocket fd) s (fun d _ s' => d = [] ∧ s' = s) fun _ => False :=
    yields_ite (fun _ => yields_tell (fun _ => id) (fun _ => id) fun _ => yields_pure ⟨rfl, rfl⟩)
      fun _ => yields_pure ⟨rfl, rfl⟩
  refine yields_get.mpr (yields_then hclose ?_ fun _ => False.elim)
  rintro _ _ _ ⟨rfl, rfl⟩
  refine yields_then hclose ?_ fun _ => False.elim
  rintro _ _ _ ⟨rfl, rfl⟩
  refine yields_then hclose ?_ fun _ => False.elim
  rintro _ _ _ ⟨rfl, rfl⟩
  exact hclose

theorem closeAllSockets_stops : Stops closeAllSockets fun _ => True := by
  have hclose {fd : Int} : Stops (closeSocket fd) fun _ => True :=
    stops_ite (fun _ => stops_ask (fun _ => id) fun _ => stops_pure trivial)
      fun _ => stops_pure trivial
  intro s
  refine stops_bind hclose (fun _ _ => stops_bind hclose fun _ _ => ?_) s
  exact stops_bind hclose fun _ _ => hclose

theorem discover_yields {fuel : ℕ} : Yields c (discover fuel localIp) (startState clientName)
    (fun d rc s' => Outcome clientName d rc s'.info) (· = -1) := by
  refine yields_bind tryConnectAllSockets_yields ?_ fun rc hrc => ?_
  · rintro d₁ _ s ⟨rfl, hs, hopen⟩
    refine ⟨by cases hopen; simp [Answers], (idleLoop_yields fuel).mono ?_ fun _ => id⟩
    rintro _ rc _ ⟨d₂, d₃, info, rfl, hannounce, rfl, hturn⟩
    exact .mk hs hopen hannounce hturn
  · rw [if_neg (by simp [hrc])]
    exact stops_pure hrc

theorem fujiDiscoverThread_yields (fuel : ℕ) (s : DiscoveryState) :
    Yields False (fujiDiscoverThread fuel clientName) s
      (fun d rc s' => Outcome clientName d rc s'.info) (· = -1) := by
  refine yields_modify.mpr (yields_bind getLocalIp_yields ?_ fun r hr => ?_)
  · rintro _ r _ ⟨rfl, rfl, hr⟩
    refine ⟨List.forall_mem_nil _, ?_⟩
    rw [if_neg (not_not.mpr hr)]
    refine yields_then discover_yields ?_ fun rc hrc => ?_
    · rintro d rc s' hout
      refine yields_then closeAllSockets_yields ?_ fun _ => False.elim
      rintro _ _ _ ⟨rfl, rfl⟩
      exact yields_pure (by simpa using hout)
    · exact stops_bind closeAllSockets_stops fun _ _ => stops_pure hrc
  · rw [if_pos hr.ne]
    exact stops_pure rfl

/-- **The outcomes of discovery.**  A run in which nothing fails, but for reads whose failure is
overlooked, has led one of the dialogues of `Outcome`, and returns what that has come to; any other run
returns an error, and has given no camera an answer. -/
theorem fujiDiscoverThread_outcome {fuel : ℕ} {h : SocketHistory} {rc : Int}
    {s' : DiscoveryState} (hrun : Exec (fujiDiscoverThread fuel clientName) s h rc s') :
    ((∀ e ∈ h, Fails e → Unread e) ∧ Outcome clientName (dialogue h) rc s'.info) ∨
      ((∃ e ∈ h, Fails e) ∧ (∀ e ∈ h, ¬ Answers e) ∧ rc = -1) := by
  rcases fujiDiscoverThread_yields fuel s h rc s' hrun with ⟨hgood, hout⟩ | ⟨hfails, hrest⟩
  · exact .inl ⟨fun e he hfail => hfail.resolve_left (hgood e he), hout⟩
  · exact .inr ⟨hfails.resolve_left id, hrest⟩

/-- The camera is registered. -/
theorem fujiDiscoverThread_outcome_registering : ∃ h s',
    Exec (fujiDiscoverThread 1 []) (startState []) h fujiDRegistered s' ∧
      Outcome [] (dialogue h) fujiDRegistered s'.info := by
  have htrace : ((fujiDiscoverThread 1 [] (startState [])).trace
      (registering (some (ascii "DSCNAME: X-T4\r\n")))).map (·.2.1) = some fujiDRegistered := by
    decide +kernel
  obtain ⟨⟨h, rc, s'⟩, hsome, rfl⟩ := Option.map_eq_some_iff.mp htrace
  have hrun := (Prog.runs_of_trace hsome).1
  rcases fujiDiscoverThread_outcome hrun with ⟨-, hout⟩ | ⟨-, -, hrc⟩
  · exact ⟨h, s', hrun, hout⟩
  · exact absurd hrc (by decide)

end Thread

/-! ### A camera that registers -/

section Camera

variable {fuel : ℕ} {clientName ip : List UInt8} {s s' : DiscoveryState} {h : SocketHistory}
  {discover request : List HeaderLine} {eol eol' : LineBreak} {n n' : ℕ}

/-- What is received on the descriptors for `u` is the message `m`. -/
def Receives (u : Sock) (m : List UInt8) : SocketEvent → Prop
  | ⟨.recv u' _ _, r⟩ => u' = u → r.map (·.val) = some m
  | _ => True

instance (u : Sock) (m : List UInt8) : DecidablePred (Receives u m)
  | ⟨.recv _ _ _, _⟩ => inferInstanceAs (Decidable (_ → _))
  | ⟨.socket _, _⟩ | ⟨.extraSocketSettings _, _⟩ | ⟨.connect _ _ _ _, _⟩ | ⟨.getsockname _, _⟩
  | ⟨.inetPton _, _⟩ | ⟨.select _ _ _, _⟩ | ⟨.getSocketError _, _⟩ | ⟨.setsockopt _ _, _⟩
  | ⟨.bind _ _ _ _, _⟩ | ⟨.listen _ _ _, _⟩ | ⟨.accept _ _, _⟩ | ⟨.send _ _ _, _⟩
  | ⟨.sendto _ _ _ _, _⟩ | ⟨.close _, _⟩ | ⟨.checkCancel, _⟩ | ⟨.storeBehind _, _⟩
  | ⟨.readBehind, _⟩ => isTrue trivial

theorem IsText.eq {buffer : Vector UInt8 64} {text : List UInt8} (hbuffer : IsString buffer)
    (htext : IsText buffer text) : text = cText buffer.toList := (if_pos hbuffer).mp htext

/-- A text that is shorter than its buffer has been terminated. -/
theorem IsText.eq_of_short {buffer : Vector UInt8 64} {text value : List UInt8}
    (hvalue : cText buffer.toList = value) (hshort : value.length < 64)
    (htext : IsText buffer text) : text = value := by
  refine (htext.eq ?_).trans hvalue
  by_contra hzero
  rw [cText_eq_self_iff.mpr hzero] at hvalue
  rw [← hvalue, Vector.length_toList] at hshort
  exact lt_irrefl _ hshort

/-- A string that was empty. -/
theorem StringHolds.getD {new : Vector UInt8 64} {value : Option (List UInt8)}
    (hholds : StringHolds (.replicate 64 0) new value) : cText new.toList = value.getD [] := by
  cases value with
  | none =>
    rw [show new = _ from hholds]
    decide
  | some value => exact hholds

/-- What has been received is what is read. -/
theorem Heard.eq {size : ℕ} {fd : Int} {r : Option { bytes : List UInt8 // bytes.length ≤ size }}
    {u : Sock} {text : List UInt8} (hheard : Heard r text)
    (hreceives : Receives u (messageText eol n discover) ⟨.recv u fd size, r⟩) :
    text = messageText eol n discover := by
  obtain ⟨bytes, rfl, hbytes⟩ := Option.map_eq_some_iff.mp (hreceives rfl)
  rw [hheard bytes rfl, hbytes, cText_eq_self_iff.mpr zero_notMem_messageText]

/-- The dialogue with a camera that has registered. -/
theorem Outcome.registered {d : SocketHistory} {info : DiscoverInfo}
    (hout : Outcome clientName d fujiDRegistered info) : ∃ fd d₁ d₂, d = d₁ ++ d₂ ∧
      Registers .register fd fujiAutosaveRegister (startState clientName).info d₂ info := by
  generalize hrc : fujiDRegistered = rc at hout
  cases hout with
  | @mk localIp s d₁ d₂ d₃ _ _ hs hopen hannounce hturn =>
    cases hturn with
    | registered hd =>
      rw [hs] at hd
      exact ⟨s.regFd, d₁ ++ d₂, d₃, (List.append_assoc ..).symm, hd⟩
    | cancelled | connected _ | tethered _ => exact absurd hrc (by decide)

theorem isToken_discover : IsToken (ascii "DISCOVER") := ⟨by decide, by decide +kernel⟩

theorem isToken_dscaddr : IsToken (ascii "DSCADDR") := ⟨by decide, by decide +kernel⟩

theorem zero_notMem_discover : 0 ∉ ascii "DISCOVER" := by decide

theorem zero_notMem_dscaddr : 0 ∉ ascii "DSCADDR" := by decide

/-- The datagram of a camera that looks for nobody in particular. -/
def anybodyMessage : List HeaderLine := [
  { key := ascii "DISCOVER", separator := .blank, value := ascii "* HTTP/1.1"
    isToken := isToken_discover, key_zero := zero_notMem_discover, oneLine := by decide +kernel },
  { key := ascii "DSCADDR", separator := .colonBlank, value := ascii "192.168.1.3"
    isToken := isToken_dscaddr, key_zero := zero_notMem_dscaddr, oneLine := by decide +kernel }]

/-- The request of a camera. -/
def nameMessage : List HeaderLine := [
  { key := ascii "DSCNAME", separator := .colonBlank, value := ascii "X-T4"
    isToken := ⟨by decide, by decide +kernel⟩, key_zero := by decide
    oneLine := by decide +kernel }]

end Camera

end Discovery

end Fuji
