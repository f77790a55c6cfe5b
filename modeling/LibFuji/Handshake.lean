/-
The packets of the handshake (`ptpip_fuji_connect_handshake` in `fuji.c`).

One buffer holds the packet that is sent, the length of the reply and the reply.  The name of the
client is written to it as long as it is, the rest of the reply is asked for with the length that
the camera announces, and what the reads return is only compared with 0.

`ptpipFujiConnectHandshake_sound_iff` says when this is right: for names of at most 26 characters,
lengths that the buffer has room for, and replies that are not cut short.
-/
import LibFuji.Setup

namespace Fuji

open ByteCodec Interaction

/-! ### What a handshake owes -/

/-- The packet of a client, with its name as text of two bytes a character; a name that does not
fit in `device_name[54]` with its terminator is cut off. -/
def IsInitPacket (name data : List UInt8) : Prop :=
  data.length = 0x52 ∧ data.take 28 = initHeader ∧
    ∃ rest, data.drop 28 = unicodeString (name.take 26) ++ rest

/-- The packet that an event sends. -/
def packetOf : Event Op Op.Ret → List (List UInt8)
  | ⟨.cmdWrite data, _⟩ => [data]
  | _ => []

/-- The bytes that a read of the reply stores. -/
def replyBytesOf : Event Op Op.Ret → List UInt8
  | ⟨.cmdRead _ _, r⟩ => r.2
  | _ => []

/-- The bytes of the reply that have come. -/
def replyBytes (h : History) : List UInt8 := h.flatMap replyBytesOf

/-- A complete reply of the length that it announces, which is an acknowledgement. -/
def IsAck (reply : List UInt8) : Prop :=
  8 ≤ reply.length ∧ leNat (reply.take 4) = reply.length ∧ packetType reply = ptpipInitCommandAck

/-- What a handshake owes to a buffer of this capacity: one packet is sent, that of the client, and
nothing has been written behind it, no read is asked for a negative number of bytes or for more than
the buffer can hold, and success means that a complete acknowledgement has come. -/
structure HandshakeSound (capacity : ℕ) (name : List UInt8) (h : History) (rc : Rc) : Prop where
  packet : ∃ data, h.flatMap packetOf = [data] ∧ IsInitPacket name data
  within : (initPacket name).length = 0x52
  asks : ∀ (of : ℕ) (size : Int) r, ⟨.cmdRead of size, r⟩ ∈ h → 0 ≤ size ∧ of + size ≤ capacity
  acked : rc = .ok → IsAck (replyBytes h)

/-- A read stores as many bytes as it returns, which are at most those that it is asked for. -/
def StoresReturned : Event Op Op.Ret → Prop
  | ⟨.cmdRead _ size, r⟩ =>
    let r : Int × List UInt8 := r
    r.2.length = r.1.toNat ∧ (0 ≤ size → r.1 ≤ size)
  | _ => True

/-- The results of the two reads of a handshake. -/
def Replied (name : List UInt8) (h : History) (x₁ : Int) (b₁ : List UInt8) (x₂ : Int)
    (b₂ : List UInt8) : Prop :=
  ⟨.cmdRead 0 4, (x₁, b₁)⟩ ∈ h ∧ ⟨.cmdRead 4 (replyLength name b₁ - 4), (x₂, b₂)⟩ ∈ h

/-- The buffer has room for the length that is announced, and if the type in the buffer is that of
an acknowledgement, the reply has come in full and has a type. -/
def SoundReply (capacity : ℕ) (name : List UInt8) (x₁ : Int) (b₁ : List UInt8) (x₂ : Int)
    (b₂ : List UInt8) : Prop :=
  4 ≤ replyLength name b₁ ∧ replyLength name b₁ ≤ capacity ∧
    (0 < x₂ → packetType (initReply name b₁ b₂) = ptpipInitCommandAck →
      x₁ = 4 ∧ x₂ = replyLength name b₁ - 4 ∧ 8 ≤ replyLength name b₁)

/-! ### The packet -/

section Packet

variable {name b₁ b₂ data bytes : List UInt8} {of : ℕ}

theorem unicodeString_length (name : List UInt8) :
    (unicodeString name).length = 2 * name.length + 2 := by
  rw [unicodeString, List.length_append, List.length_flatMap]
  simp [mul_comm]

theorem initHeader_length : initHeader.length = 28 := rfl

theorem initPacket_eq (name : List UInt8) :
    initPacket name =
      initHeader ++ (unicodeString name ++ List.replicate (54 - (unicodeString name).length) 0) := by
  have htake : (initHeader ++ List.replicate 54 (0 : UInt8)).take 28 = initHeader :=
    List.take_left' initHeader_length
  rw [initPacket, overwrite, htake, List.drop_append, initHeader_length, List.drop_of_length_le
    (by rw [initHeader_length]; omega), List.drop_replicate, List.nil_append, List.append_assoc]
  congr 4
  omega

theorem initPacket_length_eq_iff : (initPacket name).length = 0x52 ↔ name.length ≤ 26 := by
  rw [initPacket_eq, List.length_append, List.length_append, List.length_replicate,
    initHeader_length, unicodeString_length]
  omega

theorem isInitPacket (hname : name.length ≤ 26) :
    IsInitPacket name ((initPacket name).take 0x52) := by
  have hlength := initPacket_length_eq_iff.mpr hname
  have hfront : (initPacket name).take 28 = initHeader := by
    rw [initPacket_eq, List.take_left' initHeader_length]
  have hback : (initPacket name).drop 28 =
      unicodeString name ++ List.replicate (54 - (unicodeString name).length) 0 := by
    rw [initPacket_eq, List.drop_left' initHeader_length]
  rw [List.take_of_length_le hlength.le]
  refine ⟨hlength, hfront, List.replicate (54 - (unicodeString name).length) 0, ?_⟩
  rw [List.take_of_length_le hname, hback]

/-! ### The reply -/

theorem toCInt_of_nonneg {n : ℕ} (hn : n < 2 ^ 32) (hpos : 0 ≤ toCInt n) : toCInt n = n := by
  rw [toCInt, Int.bmod_def] at hpos ⊢
  split_ifs at hpos ⊢ <;> omega

/-- The bytes of the length that have not come are those of the packet that was sent, which are
zero. -/
theorem replyLength_eq (hpos : 0 < b₁.length) (hle : b₁.length ≤ 4) :
    replyLength name b₁ = toCInt (leNat b₁) := by
  obtain ⟨rest, hrest⟩ : ∃ rest, initPacket name = 0x52 :: 0 :: 0 :: 0 :: rest :=
    ⟨_, initPacket_eq name⟩
  rw [replyLength, hrest]
  match b₁, hpos, hle with
  | [a], _, _ => simp [overwrite, leNat, Nat.ofDigits]
  | [a, b], _, _ => simp [overwrite, leNat, Nat.ofDigits]
  | [a, b, c], _, _ => simp [overwrite, leNat, Nat.ofDigits]
  | [a, b, c, d], _, _ => simp [overwrite]

/-- Behind a complete length the buffer has the type of the reply. -/
theorem packetType_initReply (hb₁ : b₁.length = 4) (hb₂ : 4 ≤ b₂.length) :
    packetType (initReply name b₁ b₂) = packetType (b₁ ++ b₂) := by
  have hbuffer : 4 ≤ (overwrite (initPacket name) 0 b₁).length := by
    rw [overwrite, List.length_append, List.length_append]
    omega
  rw [packetType, packetType, initReply, overwrite_drop hbuffer, List.drop_left' hb₁,
    List.take_append_of_le_length hb₂]

/-- Which replies are complete acknowledgements, among those whose type in the buffer says so. -/
theorem isAck_iff {x₁ x₂ : Int} (hx₁ : 0 < x₁) (hb₁ : b₁.length = x₁.toNat) (hle₁ : x₁ ≤ 4)
    (hx₂ : 0 < x₂) (hb₂ : b₂.length = x₂.toNat) (hle₂ : x₂ ≤ replyLength name b₁ - 4)
    (hack : packetType (initReply name b₁ b₂) = ptpipInitCommandAck) :
    IsAck (b₁ ++ b₂) ↔ x₁ = 4 ∧ x₂ = replyLength name b₁ - 4 ∧ 8 ≤ replyLength name b₁ := by
  have hlength : replyLength name b₁ = leNat b₁ := by
    have heq : replyLength name b₁ = toCInt (leNat b₁) := replyLength_eq (by omega) (by omega)
    have hlt : leNat b₁ < 2 ^ 32 :=
      (leNat_lt b₁).trans_le (Nat.pow_le_pow_right (by norm_num) (by omega : b₁.length ≤ 4))
    rw [heq] at hle₂ ⊢
    exact toCInt_of_nonneg hlt (by omega)
  rw [IsAck, List.length_append, hb₁, hb₂]
  rw [hlength] at hle₂ ⊢
  constructor
  · rintro ⟨height, hcomplete, -⟩
    -- the bytes that are missing could only make the length greater
    have hmore : leNat b₁ ≤ leNat ((b₁ ++ b₂).take 4) := by
      rw [List.take_append, List.take_of_length_le (by omega), leNat_append]
      exact Nat.le_add_right _ _
    omega
  · rintro ⟨rfl, rfl, height⟩
    have hfour : b₁.length = 4 := hb₁
    refine ⟨by omega, ?_, ?_⟩
    · rw [List.take_left' hfour]
      omega
    · rw [← packetType_initReply hfour (by omega), hack]

end Packet

/-! ### Runs -/

section Runs

variable {capacity : ℕ} {name : List UInt8} {s s' : PtpRuntime} {h t : History}
  {r : Rc × List UInt8}

/-- The events of a handshake between the lock and the unlock. -/
abbrev locked (t : History) : History := ⟨.mutexLock, ()⟩ :: (t ++ [⟨.mutexUnlock, ()⟩])

/-- One packet is sent. -/
theorem HandshakeRun.sends (hshake : HandshakeRun name t r) :
    (locked t).flatMap packetOf = [(initPacket name).take 0x52] := by
  cases hshake with
  | unsent x => rfl
  | silent b₁ hx₁ => rfl
  | answered b₁ b₂ x₂ hx₁ => rfl

/-- A handshake without a reply. -/
theorem sound_iff_of_silent (hcap : 0x52 ≤ capacity)
    (hsends : h.flatMap packetOf = [(initPacket name).take 0x52])
    (hreads : ∀ (of : ℕ) (size : Int) x, ⟨.cmdRead of size, x⟩ ∈ h → of = 0 ∧ size = 4) :
    HandshakeSound capacity name h .ioErr ↔ name.length ≤ 26 ∧ ∀ x₁ b₁ x₂ b₂,
      Replied name h x₁ b₁ x₂ b₂ → SoundReply capacity name x₁ b₁ x₂ b₂ := by
  constructor
  · intro hsound
    refine ⟨initPacket_length_eq_iff.mp hsound.within, fun x₁ b₁ x₂ b₂ hreplied => ?_⟩
    exact absurd (hreads _ _ _ hreplied.2).1 (by decide)
  · rintro ⟨hname, -⟩
    refine ⟨⟨_, hsends, isInitPacket hname⟩, initPacket_length_eq_iff.mpr hname,
      fun of size x hmem => ?_, ?_⟩
    · obtain ⟨rfl, rfl⟩ := hreads of size x hmem
      omega
    · rintro ⟨⟩

/-- **When a handshake is sound**: if the name of the client has at most 26 characters, and the reply,
if there is one, is sound: the buffer has room for the length that the camera announces, and an
acknowledgement is not cut short. -/
theorem ptpipFujiConnectHandshake_sound_iff (hcap : 0x52 ≤ capacity)
    (hrun : Exec (ptpipFujiConnectHandshake name) s h r s') (hreads : ∀ e ∈ h, StoresReturned e) :
    HandshakeSound capacity name h r.1 ↔ name.length ≤ 26 ∧ ∀ x₁ b₁ x₂ b₂,
      Replied name h x₁ b₁ x₂ b₂ → SoundReply capacity name x₁ b₁ x₂ b₂ := by
  obtain ⟨t, rfl, hshake⟩ := exec_handshake_cases hrun
  have hsends := hshake.sends
  cases hshake with
  | unsent x => exact sound_iff_of_silent hcap hsends (by simp)
  | silent b₁ hx₁ =>
    refine sound_iff_of_silent hcap hsends fun of size x hmem => ?_
    simpa using List.mem_map_of_mem (f := Sigma.fst) hmem
  | @answered x₁ b₁ b₂ x₂ hx₁ =>
    obtain ⟨hb₁, hle₁⟩ : StoresReturned ⟨.cmdRead 0 4, (x₁, b₁)⟩ := hreads _ (by simp)
    obtain ⟨hb₂, hle₂⟩ : StoresReturned ⟨.cmdRead 4 (replyLength name b₁ - 4), (x₂, b₂)⟩ :=
      hreads _ (by simp)
    have hreply : replyBytes (locked [⟨.cmdWrite ((initPacket name).take 0x52), (0x52 : Int)⟩,
        ⟨.cmdRead 0 4, (x₁, b₁)⟩, ⟨.cmdRead 4 (replyLength name b₁ - 4), (x₂, b₂)⟩]) = b₁ ++ b₂ := by
      simp [replyBytes, replyBytesOf]
    constructor
    · intro hsound
      refine ⟨initPacket_length_eq_iff.mp hsound.within, fun y₁ c₁ y₂ c₂ hreplied => ?_⟩
      obtain ⟨⟨rfl, rfl⟩, hsecond⟩ : (y₁ = x₁ ∧ c₁ = b₁) ∧ _ :=
        hreplied.imp_left fun hfirst => by simpa using hfirst
      obtain ⟨rfl, rfl⟩ : y₂ = x₂ ∧ c₂ = b₂ := by simpa using hsecond
      obtain ⟨hpos, hroom⟩ := hsound.asks 4 _ _ hreplied.2
      refine ⟨by omega, by omega, fun hx₂ hack => ?_⟩
      have hisack := hsound.acked (replyResult_ok_iff.mpr ⟨hx₂, hack⟩)
      rw [hreply] at hisack
      exact (isAck_iff hx₁ hb₁ (hle₁ (by decide)) hx₂ hb₂ (hle₂ hpos) hack).mp hisack
    · rintro ⟨hname, hsoundReply⟩
      obtain ⟨hpos, hroom, hcomplete⟩ := hsoundReply x₁ b₁ x₂ b₂ ⟨by simp, by simp⟩
      refine ⟨⟨_, hsends, isInitPacket hname⟩, initPacket_length_eq_iff.mpr hname,
        fun of size x hmem => ?_, fun hok => ?_⟩
      · have hasked : of = 0 ∧ size = 4 ∨ of = 4 ∧ size = replyLength name b₁ - 4 := by
          simpa using List.mem_map_of_mem (f := Sigma.fst) hmem
        omega
      · obtain ⟨hx₂, hack⟩ := replyResult_ok_iff.mp hok
        rw [hreply]
        exact (isAck_iff hx₁ hb₁ (hle₁ (by decide)) hx₂ hb₂ (hle₂ (by omega)) hack).mpr
          (hcomplete hx₂ hack)

/-- A handshake whose reply begins with the announced length 8. -/
theorem exec_handshake_eight {name b₂ : List UInt8} {x₂ : Int} (hx₂ : 0 < x₂)
    (hack : packetType (initReply name [8, 0, 0, 0] b₂) = ptpipInitCommandAck) :
    Exec (ptpipFujiConnectHandshake name) fujiPtpNew
      (locked [⟨.cmdWrite ((initPacket name).take 0x52), (0x52 : Int)⟩,
        ⟨.cmdRead 0 4, ((4 : Int), [8, 0, 0, 0])⟩,
        ⟨.cmdRead 4 (replyLength name [8, 0, 0, 0] - 4), (x₂, b₂)⟩])
      (.ok, (initReply name [8, 0, 0, 0] b₂).drop 28) fujiPtpNew := by
  have hshake : Exec (ptpipFujiConnectHandshake_ name) fujiPtpNew _ _ fujiPtpNew :=
    exec_bind (@exec_ask _ (.cmdWrite ((initPacket name).take 0x52)) (0x52 : Int)) <|
      exec_ite_neg (by simp) <| exec_bind (@exec_ask _ (.cmdRead 0 4) ((4 : Int), [8, 0, 0, 0])) <|
      exec_ite_neg (by simp) <|
      exec_bind (@exec_ask _ (.cmdRead 4 (replyLength name [8, 0, 0, 0] - 4)) (x₂, b₂)) <|
      exec_ite_neg (not_le.mpr hx₂) <| exec_ite_neg (not_not.mpr hack) <| exec_pure _
  have hrun : Exec (ptpipFujiConnectHandshake name) fujiPtpNew _ _ fujiPtpNew :=
    exec_bind (exec_ask ()) <| exec_bind hshake <| exec_bind (exec_ask ()) (exec_pure _)
  exact hrun

theorem replyLength_eight (name : List UInt8) : replyLength name [8, 0, 0, 0] = 8 := by
  rw [replyLength_eq (by decide) (by decide), toCInt]
  decide

/-- The shortest acknowledgement, for a client with a name of two characters. -/
theorem ptpipFujiConnectHandshake_sound_shortest : ∃ h r,
    Exec (ptpipFujiConnectHandshake [0x70, 0x63]) fujiPtpNew h (.ok, r) fujiPtpNew ∧
      HandshakeSound 512 [0x70, 0x63] h .ok := by
  have hrun := exec_handshake_eight (show (0 : Int) < 4 by decide)
    (show packetType (initReply [0x70, 0x63] [8, 0, 0, 0] [2, 0, 0, 0]) = _ by decide)
  refine ⟨_, _, hrun, (ptpipFujiConnectHandshake_sound_iff (by decide) hrun ?_).mpr
    ⟨by decide, fun x₁ b₁ x₂ b₂ hreplied => ?_⟩⟩
  · simp [StoresReturned, replyLength_eight]
  · obtain ⟨rfl, rfl⟩ : x₁ = 4 ∧ b₁ = [8, 0, 0, 0] := by simpa using hreplied.1
    obtain ⟨rfl, rfl⟩ : x₂ = 4 ∧ b₂ = [2, 0, 0, 0] := by simpa using hreplied.2
    simp [SoundReply, replyLength_eight]

/-- One byte of the type has come, and makes an acknowledgement of the packet that was sent. -/
theorem ptpipFujiConnectHandshake_cutShort : ∃ h r,
    Exec (ptpipFujiConnectHandshake []) fujiPtpNew h (.ok, r) fujiPtpNew ∧
      (∀ e ∈ h, StoresReturned e) ∧ ¬ HandshakeSound 512 [] h .ok := by
  have hrun := exec_handshake_eight (show (0 : Int) < 1 by decide)
    (show packetType (initReply [] [8, 0, 0, 0] [2]) = _ by decide)
  refine ⟨_, _, hrun, ?_, fun hsound => ?_⟩
  · simp [StoresReturned, replyLength_eight]
  · exact absurd (hsound.acked rfl).1 (by decide)

end Runs

end Fuji
