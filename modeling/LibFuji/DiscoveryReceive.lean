/-
The messages that discovery receives (`discovery.c`).

At five sites a message is received into a buffer, terminated and scanned: two of them take the
result for a signed number, three for an unsigned one, and one leaves no room for the terminator.
What the functions do around these sites is the same everywhere (`onDatagram_eq`, `notifyServer_eq`,
`answerInvite_eq`, `fujiTetherAccept_eq`): an error is returned, and a text gone on with.

`receive_terminates_iff` says for which results a site does what it should: a failed read is an
error where the result is signed, the buffer of `respond_to_datagram` must not be full, and a zero
among the bytes ends the text.
-/
import LibFuji.Discovery

namespace Fuji

open Interaction
open Exif (ascii)

namespace Discovery

/-! ### The sites -/

/-- The places where a message is received. -/
inductive ReceiveSite
  /-- `state_idle` with `reg_fd` -/
  | register
  /-- `state_idle` with `con_fd` -/
  | connect
  /-- `respond_to_datagram` -/
  | notify
  /-- `start_invite_server` -/
  | invite
  /-- `fuji_tether_accept` -/
  | tether
  deriving DecidableEq, Repr

/-- What the descriptor of a site is used for. -/
def ReceiveSite.sock : ReceiveSite → Sock
  | register => .register
  | connect => .connect
  | notify => .notify
  | invite => .inviteClient
  | tether => .tetherClient

/-- How many bytes a site asks for. -/
def ReceiveSite.size : ReceiveSite → ℕ
  | notify => 512
  | _ => 1023

/-- The result of `recv` or `recvfrom` at a site; `none` is -1. -/
abbrev ReceiveSite.Result (site : ReceiveSite) : Type :=
  Option { bytes : List UInt8 // bytes.length ≤ site.size }

/-- `start_invite_server` and `fuji_tether_accept`: the text of a client. -/
def receiveText (u : Sock) (fd : Int) : DiscM (Option (List UInt8)) := do
  let r : Option { bytes : List UInt8 // bytes.length ≤ 1023 } ← ask (.recv u fd 1023)
  match r with
  | none => return none
  | some bytes => return some (cText bytes)

/-- What a site makes of the message: an error, or the text that is scanned. -/
def ReceiveSite.receive : ReceiveSite → Int → DiscM (Option (List UInt8))
  | register, fd => receiveGreeting .register fd
  | connect, fd => receiveGreeting .connect fd
  | notify, fd => receiveAck fd
  | invite, fd => receiveText .inviteClient fd
  | tether, fd => receiveText .tetherClient fd

/-- What follows a site: an error is returned, and a text gone on with. -/
def afterReceive (f : List UInt8 → DiscM Int) : Option (List UInt8) → DiscM Int
  | none => return -1
  | some text => f text

/-- `start_invite_server` behind the message of the client. -/
def acceptInvite (port : ℕ) (serverFd clientFd : Int) (text : List UInt8) : DiscM Int := do
  let complete ← scanText inviteField text
  if complete = false then return -1
  else if port ≠ fujiAutosaveRegister ∧ port ≠ fujiAutosaveConnect then return -1
  else
    let rc : Int ← ask (.send .inviteClient clientFd (inviteResponse port))
    if rc < 0 then return -1
    else
      let _ ← ask (.close clientFd)
      let _ ← ask (.close serverFd)
      return 0

/-- `fuji_tether_accept` behind the message of the client. -/
def acceptTether (clientFd : Int) (text : List UInt8) : DiscM Int := do
  let complete ← scanText tetherField text
  if complete = false then return -1
  else
    let rc : Int ← ask (.send .tetherClient clientFd (ascii "HTTP/1.1 200 OK\r\n" ++ [0]))
    if rc < 0 then return -1
    else
      let _ ← ask (.close clientFd)
      return 0

theorem onDatagram_eq (u : Sock) (fd : Int) (accept : List UInt8 → DiscM Int) (result : Int) :
    onDatagram u fd accept result = receiveGreeting u fd >>= afterReceive fun greeting => (do
      let rc ← accept greeting
      if rc ≠ 0 then return -1 else return result) := by
  refine congrArg (receiveGreeting u fd >>= ·) (funext fun greeting => ?_)
  cases greeting <;> rfl

theorem notifyServer_eq (fd : Int) :
    notifyServer fd = (do
      let s ← get
      let ip ← readString s.info.cameraIp
      let clientName ← readString s.info.clientName
      let len : Int ← ask (.send .notify fd (notifyText ip clientName))
      if len ≠ (notifyText ip clientName).length then return -1
      else ReceiveSite.notify.receive fd >>= afterReceive fun text =>
        if ascii "HTTP/1.1 200 OK" <:+: text then return 0 else return -1) := by
  have hafter : (fun ack : Option (List UInt8) => (match ack with
      | none => return -1
      | some text => if ascii "HTTP/1.1 200 OK" <:+: text then return 0 else return -1 : DiscM Int)) =
      afterReceive fun text =>
        if ascii "HTTP/1.1 200 OK" <:+: text then return 0 else return -1 := by
    funext ack
    cases ack <;> rfl
  rw [notifyServer, ← hafter]
  rfl

theorem answerInvite_eq (port : ℕ) (serverFd clientFd : Int) :
    answerInvite port serverFd clientFd =
      ReceiveSite.invite.receive clientFd >>= afterReceive (acceptInvite port serverFd clientFd) := by
  funext s
  refine congrArg (Prog.call _) (funext fun r => ?_)
  cases r <;> rfl

theorem fujiTetherAccept_eq (serverFd : Int) :
    fujiTetherAccept serverFd = (do
      let clientFd : Int ← ask (.accept .tether serverFd)
      if clientFd < 0 then return -1
      else ReceiveSite.tether.receive clientFd >>= afterReceive (acceptTether clientFd)) := by
  funext s
  refine congrArg (Prog.call _) (funext fun clientFd => ?_)
  refine congrFun (ite_congr rfl (fun _ => rfl) fun _ => ?_) s
  funext s
  refine congrArg (Prog.call _) (funext fun r => ?_)
  cases r <;> rfl

/-! ### What is owed -/

/-- The length of the buffer at a site. -/
def ReceiveSite.capacity : ReceiveSite → ℕ
  | notify => 512
  | _ => 1024

/-- Is the result taken for a signed number? -/
def ReceiveSite.signed : ReceiveSite → Bool
  | invite | tether => true
  | _ => false

/-- What a site owes for a result: nothing is stored behind the buffer, a failed read is an error,
and the text that is scanned is what has been received. -/
structure ReceivesText {site : ReceiveSite} (r : site.Result) (h : SocketHistory)
    (text : Option (List UInt8)) : Prop where
  inside : ∀ e ∈ h, ∀ i, e.1 ≠ .storeBehind i
  failed : r = none → text = none
  received : ∀ bytes, r = some bytes → text = some bytes.val ∨ bytes.val = [] ∧ text = none

/-- The results for which it does: a failed read where the result is signed, and bytes that leave
room for the terminator and are no terminators themselves. -/
def ReceiveSite.Terminates (site : ReceiveSite) : site.Result → Prop
  | none => site.signed = true
  | some bytes => bytes.val.length < site.capacity ∧ 0 ∉ bytes.val

section Runs

variable {site : ReceiveSite} {u : Sock} {fd : Int} {s s' : DiscoveryState} {h : SocketHistory}
  {text : Option (List UInt8)}

theorem cText_eq_self_iff {bytes : List UInt8} : cText bytes = bytes ↔ 0 ∉ bytes := by
  rw [cText, List.takeWhile_eq_self_iff]
  constructor
  · intro hall hzero
    exact absurd (hall 0 hzero) (by simp)
  · intro hzero b hb
    simpa using ne_of_mem_of_not_mem hb hzero

/-- A text that has been terminated inside its buffer. -/
theorem receivesText_iff {r : site.Result} {bytes : List UInt8} {hle : bytes.length ≤ site.size}
    (hr : r = some ⟨bytes, hle⟩)
    (htext : text = some (cText bytes) ∨ bytes = [] ∧ text = none) :
    ReceivesText r [] text ↔ 0 ∉ bytes := by
  subst hr
  constructor
  · intro hreceives
    rcases htext with rfl | ⟨rfl, -⟩
    · rcases hreceives.received _ rfl with heq | ⟨-, hnone⟩
      · exact cText_eq_self_iff.mp (Option.some.inj heq)
      · cases hnone
    · exact List.not_mem_nil
  · intro hzero
    rw [cText_eq_self_iff.mpr hzero] at htext
    refine ⟨by simp, by simp, ?_⟩
    rintro _ ⟨⟩
    exact htext

theorem not_receivesText {r : site.Result} {i : ℕ} (hstore : ⟨.storeBehind i, ()⟩ ∈ h) :
    ¬ ReceivesText r h text := fun hreceives => hreceives.inside _ hstore i rfl

/-- A signed result. -/
theorem receiveText_run {r : Option { bytes : List UInt8 // bytes.length ≤ 1023 }}
    (hrun : Exec (receiveText u fd) s (⟨.recv u fd 1023, r⟩ :: h) text s') :
    h = [] ∧ (r = none ∧ text = none ∨
      ∃ bytes hle, r = some ⟨bytes, hle⟩ ∧ text = some (cText bytes)) := by
  obtain ⟨r, t, heq, hrest⟩ := exec_call_bind.mp hrun
  obtain ⟨⟨⟩, rfl⟩ := List.cons.inj heq
  cases r with
  | none =>
    cases hrest
    exact ⟨rfl, .inl ⟨rfl, rfl⟩⟩
  | some bytes =>
    cases hrest
    exact ⟨rfl, .inr ⟨bytes.1, bytes.2, rfl, rfl⟩⟩

/-- An unsigned result. -/
theorem receiveGreeting_run {r : Option { bytes : List UInt8 // bytes.length ≤ 1023 }}
    (hrun : Exec (receiveGreeting u fd) s (⟨.recv u fd 1023, r⟩ :: h) text s') :
    r = none ∧ ⟨.storeBehind (2 ^ 32 - 1), ()⟩ ∈ h ∨ ∃ bytes hle, r = some ⟨bytes, hle⟩ ∧ h = [] ∧
      (text = some (cText bytes) ∨ bytes = [] ∧ text = none) := by
  obtain ⟨r, t, heq, hrest⟩ := exec_call_bind.mp (exec_modify_bind.mp hrun)
  obtain ⟨⟨⟩, rfl⟩ := List.cons.inj heq
  cases r with
  | none =>
    obtain ⟨_, t, rfl, -⟩ := exec_call_bind.mp hrest
    exact .inl ⟨rfl, List.mem_cons_self⟩
  | some bytes =>
    refine .inr ⟨bytes.1, bytes.2, rfl, ?_⟩
    dsimp only at hrest
    by_cases hlen : bytes.1.length = 0
    · rw [if_pos hlen] at hrest
      cases hrest
      exact ⟨rfl, .inr ⟨List.length_eq_zero_iff.mp hlen, rfl⟩⟩
    · rw [if_neg hlen] at hrest
      cases hrest
      exact ⟨rfl, .inl rfl⟩

/-- An unsigned result, and a buffer without room for the terminator. -/
theorem receiveAck_run {r : Option { bytes : List UInt8 // bytes.length ≤ 512 }}
    (hrun : Exec (receiveAck fd) s (⟨.recv .notify fd 512, r⟩ :: h) text s') :
    r = none ∧ ⟨.storeBehind (2 ^ 64 - 1), ()⟩ ∈ h ∨ ∃ bytes hle, r = some ⟨bytes, hle⟩ ∧
      (bytes.length = 512 ∧ ⟨.storeBehind 512, ()⟩ ∈ h ∨ bytes.length < 512 ∧ h = [] ∧
        (text = some (cText bytes) ∨ bytes = [] ∧ text = none)) := by
  obtain ⟨r, t, heq, hrest⟩ := exec_call_bind.mp hrun
  obtain ⟨⟨⟩, rfl⟩ := List.cons.inj heq
  cases r with
  | none =>
    obtain ⟨_, t, rfl, -⟩ := exec_call_bind.mp hrest
    exact .inl ⟨rfl, List.mem_cons_self⟩
  | some bytes =>
    refine .inr ⟨bytes.1, bytes.2, rfl, ?_⟩
    dsimp only at hrest
    by_cases hlen : bytes.1.length = 0
    · rw [if_pos hlen] at hrest
      cases hrest
      exact .inr ⟨by omega, rfl, .inr ⟨List.length_eq_zero_iff.mp hlen, rfl⟩⟩
    · rw [if_neg hlen] at hrest
      by_cases hfull : bytes.1.length = 512
      · rw [if_pos hfull] at hrest
        obtain ⟨_, t, rfl, -⟩ := exec_call_bind.mp hrest
        exact .inl ⟨hfull, List.mem_cons_self⟩
      · rw [if_neg hfull] at hrest
        cases hrest
        exact .inr ⟨lt_of_le_of_ne bytes.2 hfull, rfl, .inl rfl⟩

/-- **For which results a site terminates and scans what it has received**: for a failed read where
the result is taken for a signed number, and for bytes that leave room for the terminator and have
none among them. -/
theorem receive_terminates_iff (site : ReceiveSite) (r : site.Result)
    (hrun : Exec (site.receive fd) s (⟨.recv site.sock fd site.size, r⟩ :: h) text s') :
    ReceivesText r h text ↔ site.Terminates r := by
  -- the bytes behind a failed read that is taken for a great length
  have hfailed {i : ℕ} (hr : r = none) (hsigned : site.signed = false)
      (hstore : ⟨.storeBehind i, ()⟩ ∈ h) : ReceivesText r h text ↔ site.Terminates r := by
    refine iff_of_false (not_receivesText hstore) ?_
    rw [hr]
    exact (by simp [hsigned] : ¬ site.signed = true)
  have hread {bytes : List UInt8} {hle : bytes.length ≤ site.size} (hr : r = some ⟨bytes, hle⟩)
      (hroom : bytes.length < site.capacity) (hh : h = [])
      (htext : text = some (cText bytes) ∨ bytes = [] ∧ text = none) :
      ReceivesText r h text ↔ site.Terminates r := by
    rw [hh, receivesText_iff hr htext, hr]
    exact (and_iff_right hroom).symm
  cases site with
  | register | connect =>
    rcases receiveGreeting_run hrun with ⟨hr, hstore⟩ | ⟨bytes, hle, hr, hh, htext⟩
    · exact hfailed hr rfl hstore
    · exact hread hr (Nat.lt_succ_of_le hle) hh htext
  | notify =>
    rcases receiveAck_run hrun with ⟨hr, hstore⟩ | ⟨bytes, hle, hr, hend⟩
    · exact hfailed hr rfl hstore
    rcases hend with ⟨hfull, hstore⟩ | ⟨hroom, hh, htext⟩
    · refine iff_of_false (not_receivesText hstore) ?_
      rw [hr]
      exact fun hterminates => absurd hterminates.1 (by rw [hfull]; decide)
    · exact hread hr hroom hh htext
  | invite | tether =>
    obtain ⟨hh, ⟨rfl, rfl⟩ | ⟨bytes, hle, hr, htext⟩⟩ := receiveText_run hrun
    · subst hh
      exact iff_of_true ⟨by simp, fun _ => rfl, by simp⟩ rfl
    · exact hread hr (Nat.lt_succ_of_le hle) hh (.inl htext)

/-- The datagram of a camera is received. -/
theorem receive_terminates_greeting : ∃ h text s',
    Exec (ReceiveSite.register.receive 3) (startState [])
      (⟨.recv .register 3 1023, some ⟨ascii "DISCOVER *", by decide⟩⟩ :: h) text s' ∧
      @ReceivesText .register (some ⟨ascii "DISCOVER *", by decide⟩) h text := by
  have hrun : Exec (ReceiveSite.register.receive 3) (startState [])
      [⟨.recv .register 3 1023, some ⟨ascii "DISCOVER *", by decide⟩⟩]
      (some (cText (ascii "DISCOVER *"))) _ :=
    exec_modify_bind.mpr <| exec_call_bind.mpr ⟨_, _, rfl, exec_ite_neg (by decide) (exec_pure _)⟩
  exact ⟨_, _, _, hrun, (receive_terminates_iff .register _ hrun).mpr (by
    exact ⟨by decide, by decide⟩)⟩

/-- A read that fails is no error: the terminator is stored 4 GB behind the buffer, and what was in it
is scanned. -/
theorem receive_failedRead : ∃ h text s',
    Exec (ReceiveSite.register.receive 3) (startState []) (⟨.recv .register 3 1023, none⟩ :: h)
      (some text) s' ∧ ¬ @ReceivesText .register none h (some text) := by
  have hrun : Exec (ReceiveSite.register.receive 3) (startState [])
      [⟨.recv .register 3 1023, none⟩, ⟨.storeBehind (2 ^ 32 - 1), ()⟩, ⟨.readBehind, []⟩]
      (some []) _ :=
    exec_modify_bind.mpr <| exec_call_bind.mpr ⟨none, _, rfl,
      exec_call_bind.mpr ⟨(), _, rfl, exec_call_bind.mpr ⟨[], _, rfl, exec_pure _⟩⟩⟩
  exact ⟨_, _, _, hrun, not_receivesText List.mem_cons_self⟩

end Runs

end Discovery

end Fuji
