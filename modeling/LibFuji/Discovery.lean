/-
Discovery of cameras in the network (`discovery.c`): the sockets, and the messages that are
scanned for keywords.

The sockets are those of the host, and answer what they like; `Sock` names what a descriptor
is used for.  A message is a flat list of tokens, and `scanTokens` takes the token behind a
keyword for its value.  A text that is not terminated is read on behind its buffer, and a
terminator that is stored behind a buffer is an operation of its own.  The progress texts are
left out.
-/
import LibFuji.Exif
import LibFuji.Ptp

namespace Fuji

open Interaction
open Exif (ascii)

/-! ### Sockets -/

/-- What a descriptor is used for.  It is no argument of the calls, and only tells the
descriptors of a history apart. -/
inductive Sock
  | probe | register | connect | tether | broadcast | notify | invite | inviteClient | tetherClient
  deriving DecidableEq, Repr

/-- The calls of discovery. -/
inductive SocketOp
  | socket (u : Sock)
  /-- `ptp_set_extra_socket_settings` -/
  | extraSocketSettings (fd : Int)
  | connect (u : Sock) (fd : Int) (addr : List UInt8) (port : ℕ)
  | getsockname (fd : Int)
  | inetPton (addr : List UInt8)
  | select (read write : List Int) (seconds : ℕ)
  /-- `getsockopt` for `SO_ERROR` -/
  | getSocketError (fd : Int)
  | setsockopt (u : Sock) (fd : Int)
  | bind (u : Sock) (fd : Int) (addr : List UInt8) (port : ℕ)
  | listen (u : Sock) (fd : Int) (backlog : ℕ)
  | accept (u : Sock) (fd : Int)
  /-- `recv` and `recvfrom` -/
  | recv (u : Sock) (fd : Int) (size : ℕ)
  | send (u : Sock) (fd : Int) (data : List UInt8)
  | sendto (fd : Int) (data addr : List UInt8) (port : ℕ)
  | close (fd : Int)
  /-- `fuji_discovery_check_cancel` -/
  | checkCancel
  /-- a zero stored behind the end of a buffer -/
  | storeBehind (i : ℕ)
  /-- the text that is found behind the end of a buffer, or in one that nothing was written to -/
  | readBehind

/-- The answers: return codes and descriptors, with `errno` behind `connect`, and the bytes
received, where `none` is -1. -/
@[reducible] def SocketOp.Ret : SocketOp → Type
  | socket _ => Int
  | connect _ _ _ _ => Int × Int
  | getsockname _ => Int × List UInt8
  | inetPton _ => Int
  | select _ _ _ => Int × List Int
  | getSocketError _ => Int × Int
  | setsockopt _ _ => Int
  | bind _ _ _ _ => Int
  | listen _ _ _ => Int
  | accept _ _ => Int
  | recv _ _ size => Option { bytes : List UInt8 // bytes.length ≤ size }
  | send _ _ _ => Int
  | sendto _ _ _ _ => Int
  | checkCancel => Bool
  | readBehind => List UInt8
  | _ => Unit

/-- `enum DiscoverRet`. -/
def fujiDRegistered : Int := 1
def fujiDGoPtp : Int := 2
def fujiDCanceled : Int := 3
def fujiDOpenDenied : Int := 5

def fujiCmdIpPort : Int := 55740

/-- `struct DiscoveryState`, and the `struct DiscoverInfo` that is filled. -/
structure DiscoveryState where
  info : DiscoverInfo
  regFd : Int
  conFd : Int
  tetherFd : Int
  pcssFd : Int

/-- Programs of discovery. -/
abbrev DiscM : Type → Type := StateT DiscoveryState (Prog SocketOp SocketOp.Ret)

/-- Histories of discovery. -/
abbrev SocketHistory : Type := List (Event SocketOp SocketOp.Ret)

namespace Discovery

/-- Ask the environment. -/
def ask (op : SocketOp) : DiscM op.Ret := call op

/-! ### Texts -/

/-- A text up to its terminator. -/
def cText (bytes : List UInt8) : List UInt8 := bytes.takeWhile (· ≠ 0)

/-- The delimiters of the scanners. -/
def delimiters : List UInt8 := ascii " :\r\n"

/-- What repeated calls of `strtok_r` return. -/
def tokens (text : List UInt8) : List (List UInt8) :=
  (text.splitOnP (· ∈ delimiters)).filter (· ≠ [])

/-- `strncpy` to a buffer of 64 bytes. -/
def strncpy64 (src : List UInt8) : Vector UInt8 64 :=
  ⟨((src ++ List.replicate 64 0).take 64).toArray, by simp⟩

/-- `snprintf` of a text to a buffer of 64 bytes; what is behind the terminator stays. -/
def snprintf64 (src : List UInt8) (buffer : Vector UInt8 64) : Vector UInt8 64 :=
  ⟨(src.take 63 ++ 0 :: buffer.toList.drop (src.length + 1)).toArray, by simp; omega⟩

/-- The white space of `isspace`. -/
def isSpace (c : UInt8) : Bool := c = 32 || (9 ≤ c && c ≤ 13)

/-- The digits in front of a text. -/
def digits (text : List UInt8) : List ℕ :=
  (text.takeWhile fun c => 48 ≤ c && c ≤ 57).map fun c => c.toNat - 48

/-- `strtol` in base 10, for numbers in the range of a `long`. -/
def strtol (text : List UInt8) : Int :=
  match text.dropWhile isSpace with
  | 45 :: rest => -(Nat.ofDigits 10 (digits rest).reverse : ℤ)
  | 43 :: rest => Nat.ofDigits 10 (digits rest).reverse
  | rest => Nat.ofDigits 10 (digits rest).reverse

/-! ### Messages -/

/-- The loop of a scanner: the token behind a keyword is its value, and the scan ends with an
error if there is none. -/
def scanTokens (field : List UInt8 → Option (List UInt8 → DiscoverInfo → DiscoverInfo)) :
    List (List UInt8) → DiscoverInfo → DiscoverInfo × Bool
  | [], info => (info, true)
  | cur :: rest, info =>
    match field cur, rest with
    | none, rest => scanTokens field rest info
    | some _, [] => (info, false)
    | some set, value :: rest => scanTokens field rest (set value info)

section Scan

variable {field : List UInt8 → Option (List UInt8 → DiscoverInfo → DiscoverInfo)}
  {cur : List UInt8} {set : List UInt8 → DiscoverInfo → DiscoverInfo}

theorem scanTokens_skip (hcur : field cur = none) (rest : List (List UInt8)) (info : DiscoverInfo) :
    scanTokens field (cur :: rest) info = scanTokens field rest info := by
  rw [scanTokens]
  exact hcur

theorem scanTokens_missing (hcur : field cur = some set) (info : DiscoverInfo) :
    scanTokens field [cur] info = (info, false) := by
  simp [scanTokens.eq_def field [cur], hcur]

theorem scanTokens_value (hcur : field cur = some set) (value : List UInt8)
    (rest : List (List UInt8)) (info : DiscoverInfo) :
    scanTokens field (cur :: value :: rest) info = scanTokens field rest (set value info) := by
  simp [scanTokens.eq_def field (cur :: value :: rest), hcur]

/-- Whether a message is complete does not depend on what was known before. -/
theorem scanTokens_complete (toks : List (List UInt8)) (info info' : DiscoverInfo) :
    (scanTokens field toks info).2 = (scanTokens field toks info').2 := by
  induction toks, info using scanTokens.induct field generalizing info' with
  | case1 info => rfl
  | case2 info cur rest hcur ih =>
    rw [scanTokens_skip hcur, scanTokens_skip hcur]
    exact ih info'
  | case3 cur info set hcur => rw [scanTokens_missing hcur, scanTokens_missing hcur]
  | case4 cur info set value rest hcur ih =>
    rw [scanTokens_value hcur, scanTokens_value hcur]
    exact ih _

end Scan

/-- The keywords of `respond_to_datagram`. -/
def datagramField (cur : List UInt8) : Option (List UInt8 → DiscoverInfo → DiscoverInfo) :=
  if cur = ascii "DISCOVER" then some fun value info =>
    if value ≠ ascii "*" then { info with clientName := strncpy64 value } else info
  else if cur = ascii "DSCADDR" then some fun value info =>
    { info with cameraIp := strncpy64 value }
  else none

/-- The keywords of `start_invite_server`. -/
def inviteField (cur : List UInt8) : Option (List UInt8 → DiscoverInfo → DiscoverInfo) :=
  if cur = ascii "DSCNAME" then some fun value info =>
    { info with cameraName := snprintf64 value info.cameraName }
  else if cur = ascii "DSCMODEL" then some fun value info =>
    { info with cameraModel := snprintf64 value info.cameraModel }
  else none

/-- The keywords of `fuji_tether_accept`. -/
def tetherField (cur : List UInt8) : Option (List UInt8 → DiscoverInfo → DiscoverInfo) :=
  if cur = ascii "DSC" then some fun value info =>
    { info with cameraIp := snprintf64 value info.cameraIp }
  else if cur = ascii "CAMERANAME" then some fun value info =>
    { info with cameraModel := snprintf64 value info.cameraModel }
  else if cur = ascii "DSCPORT" then some fun value info =>
    { info with cameraPort := toCInt (strtol (value.take 15)) }
  else none

/-- A scan of a text; is every value there? -/
def scanText (field : List UInt8 → Option (List UInt8 → DiscoverInfo → DiscoverInfo))
    (text : List UInt8) : DiscM Bool := do
  let s ← get
  modify fun s => { s with info := (scanTokens field (tokens text) s.info).1 }
  return (scanTokens field (tokens text) s.info).2

theorem exec_scanText_bind
    {field : List UInt8 → Option (List UInt8 → DiscoverInfo → DiscoverInfo)} {text : List UInt8}
    {α : Type} {f : Bool → DiscM α} {s s' : DiscoveryState} {h : SocketHistory} {a : α} :
    Exec (scanText field text >>= f) s h a s' ↔
      Exec (f (scanTokens field (tokens text) s.info).2)
        { s with info := (scanTokens field (tokens text) s.info).1 } h a s' := Iff.rfl

/-- The text in a buffer of 64 bytes. -/
def readString (buffer : Vector UInt8 64) : DiscM (List UInt8) := do
  if 0 ∈ buffer.toList then return cText buffer.toList
  else
    let rest : List UInt8 ← ask .readBehind
    return buffer.toList ++ rest

/-! ### The invitation -/

def fujiTether : ℕ := 51560
def fujiPcssBroadcast : ℕ := 51562
def fujiAutosaveRegister : ℕ := 51542
def fujiAutosaveConnect : ℕ := 51541
def fujiAutosaveNotify : ℕ := 51540

def einprogress : Int := 115

/-- `INADDR_ANY`. -/
def inaddrAny : List UInt8 := ascii "0.0.0.0"

/-- `get_local_ip`: the return code, and the address. -/
def getLocalIp : DiscM (Int × List UInt8) := do
  let sock : Int ← ask (.socket .probe)
  let _ ← ask (.extraSocketSettings sock)
  let r : Int × Int ← ask (.connect .probe sock (ascii "1.1.1.1") 1234)
  if r.1 < 0 then return (r.1, [])
  else
    let name : Int × List UInt8 ← ask (.getsockname sock)
    if name.1 < 0 then return (name.1, [])
    else
      let _ ← ask (.close sock)
      return (0, name.2)

/-- `connect_to_notify_server`: the descriptor; 0 and negative numbers are errors. -/
def connectToNotifyServer (ip : List UInt8) (port : ℕ) : DiscM Int := do
  let serverFd : Int ← ask (.socket .notify)
  if serverFd < 0 then return -1
  else
    let _ ← ask (.extraSocketSettings serverFd)
    let rc : Int ← ask (.inetPton ip)
    if rc ≤ 0 then return -1
    else
      let r : Int × Int ← ask (.connect .notify serverFd ip port)
      if r.1 < 0 ∧ r.2 ≠ einprogress then return -1
      else
        let n : Int × List Int ← ask (.select [] [serverFd] 1)
        if n.1 = 1 then
          let r : Int × Int ← ask (.getSocketError serverFd)
          if r.1 < 0 then return -1
          else if r.2 = 0 then return serverFd
          else
            let _ ← ask (.close serverFd)
            return 0
        else
          let _ ← ask (.close serverFd)
          return 0

/-- The answer of the invite server. -/
def inviteResponse (port : ℕ) : List UInt8 :=
  if port = fujiAutosaveRegister then
    ascii "HTTP/1.1 200 OK\r\nFOLDER: guest\r\nServiceName: PCAUTOSAVE/1.0\r\n"
  else ascii "HTTP/1.1 200 OK\r\n"

/-- `start_invite_server` with a client. -/
def answerInvite (port : ℕ) (serverFd clientFd : Int) : DiscM Int := do
  let r : Option { bytes : List UInt8 // bytes.length ≤ 1023 } ← ask (.recv .inviteClient clientFd 1023)
  match r with
  | none => return -1
  | some bytes =>
    let complete ← scanText inviteField (cText bytes)
    if complete = false then return -1
    else if port ≠ fujiAutosaveRegister ∧ port ≠ fujiAutosaveConnect then return -1
    else
      let rc : Int ← ask (.send .inviteClient clientFd (inviteResponse port))
      if rc < 0 then return -1
      else
        let _ ← ask (.close clientFd)
        let _ ← ask (.close serverFd)
        return 0

/-- `start_invite_server`. -/
def startInviteServer (port : ℕ) : DiscM Int := do
  let serverFd : Int ← ask (.socket .invite)
  if serverFd < 0 then return -1
  else
    let _ ← ask (.extraSocketSettings serverFd)
    let rc : Int ← ask (.setsockopt .invite serverFd)
    if rc < 0 then return -1
    else
      let rc : Int ← ask (.bind .invite serverFd inaddrAny port)
      if rc < 0 then return -1
      else
        let rc : Int ← ask (.listen .invite serverFd 5)
        if rc < 0 then return -1
        else
          let r : Int × List Int ← ask (.select [serverFd] [] 30)
          if r.1 ≤ 0 then
            let _ ← ask (.close serverFd)
            return -1
          else
            let clientFd : Int ← ask (.accept .invite serverFd)
            if clientFd < 0 then return -1 else answerInvite port serverFd clientFd

/-- The request to the notify server. -/
def notifyText (ip clientName : List UInt8) : List UInt8 :=
  (ascii "NOTIFY * HTTP/1.1\r\nHOST: " ++ ip ++ ascii ":51540\r\nIMPORTER: " ++ clientName
    ++ ascii "\r\n").take 511

/-- `respond_to_datagram`: the text of the answer. -/
def receiveAck (fd : Int) : DiscM (Option (List UInt8)) := do
  let r : Option { bytes : List UInt8 // bytes.length ≤ 512 } ← ask (.recv .notify fd 512)
  match r with
  | none =>
    -- the length is unsigned
    let _ ← ask (.storeBehind (2 ^ 64 - 1))
    let text : List UInt8 ← ask .readBehind
    return some text
  | some bytes =>
    if bytes.val.length = 0 then return none
    else if bytes.val.length = 512 then
      let _ ← ask (.storeBehind 512)
      return some (cText bytes)
    else return some (cText bytes)

/-- `respond_to_datagram` with the notify server. -/
def notifyServer (fd : Int) : DiscM Int := do
  let s ← get
  let ip ← readString s.info.cameraIp
  let clientName ← readString s.info.clientName
  let len : Int ← ask (.send .notify fd (notifyText ip clientName))
  if len ≠ (notifyText ip clientName).length then return -1
  else
    let ack ← receiveAck fd
    match ack with
    | none => return -1
    | some text => if ascii "HTTP/1.1 200 OK" <:+: text then return 0 else return -1

/-- `respond_to_datagram`. -/
def respondToDatagram (greeting : List UInt8) : DiscM Int := do
  let complete ← scanText datagramField greeting
  if complete = false then return -1
  else
    let s ← get
    let ip ← readString s.info.cameraIp
    let fd ← connectToNotifyServer ip fujiAutosaveNotify
    if fd ≤ 0 then return -1
    else
      let rc ← notifyServer fd
      let _ ← ask (.close fd)
      return rc

/-- The invitation by a datagram: the notify server is answered, and the invite server started. -/
def acceptDatagram (port : ℕ) (greeting : List UInt8) : DiscM Int := do
  let rc ← respondToDatagram greeting
  if rc ≠ 0 then return rc else startInviteServer port

/-- `accept_register`. -/
def acceptRegister (greeting : List UInt8) : DiscM Int := acceptDatagram fujiAutosaveRegister greeting

/-- `accept_connect`. -/
def acceptConnect (greeting : List UInt8) : DiscM Int := do
  let rc ← acceptDatagram fujiAutosaveConnect greeting
  if rc ≠ 0 then return rc
  else
    modify fun s => { s with info := { s.info with cameraPort := fujiCmdIpPort } }
    return 0

/-! ### The sockets -/

/-- `open_dgram_socket`: the descriptor; 0 and negative numbers are taken for errors. -/
def openDgramSocket (u : Sock) (port : ℕ) : DiscM Int := do
  let fd : Int ← ask (.socket u)
  if fd < 0 then return -1
  else
    let _ ← ask (.extraSocketSettings fd)
    let rc : Int ← ask (.bind u fd inaddrAny port)
    if rc < 0 then
      let _ ← ask (.close fd)
      return -fujiDOpenDenied
    else return fd

/-- `fuji_open_tether_server`. -/
def fujiOpenTetherServer (localIp : List UInt8) : DiscM Int := do
  let serverFd : Int ← ask (.socket .tether)
  if serverFd < 0 then return -1
  else
    let _ ← ask (.extraSocketSettings serverFd)
    let rc : Int ← ask (.setsockopt .tether serverFd)
    if rc < 0 then return -1
    else
      let rc : Int ← ask (.bind .tether serverFd localIp fujiTether)
      if rc < 0 then return -1
      else
        let rc : Int ← ask (.listen .tether serverFd 5)
        if rc < 0 then return -1 else return serverFd

/-- `fuji_tether_accept`. -/
def fujiTetherAccept (serverFd : Int) : DiscM Int := do
  let clientFd : Int ← ask (.accept .tether serverFd)
  if clientFd < 0 then return -1
  else
    let r : Option { bytes : List UInt8 // bytes.length ≤ 1023 } ←
      ask (.recv .tetherClient clientFd 1023)
    match r with
    | none => return -1
    | some bytes =>
      let complete ← scanText tetherField (cText bytes)
      if complete = false then return -1
      else
        let rc : Int ← ask (.send .tetherClient clientFd (ascii "HTTP/1.1 200 OK\r\n" ++ [0]))
        if rc < 0 then return -1
        else
          let _ ← ask (.close clientFd)
          return 0

/-- `open_pcss`. -/
def openPcss : DiscM Int := do
  let sock : Int ← ask (.socket .broadcast)
  let _ ← ask (.extraSocketSettings sock)
  let rc : Int ← ask (.setsockopt .broadcast sock)
  if rc < 0 then return -1 else return sock

/-- `send_pcss_datagram`. -/
def sendPcssDatagram (sock : Int) (localIp : List UInt8) : DiscM Int := do
  let rc : Int ← ask (.sendto sock (ascii "DISCOVERY * HTTP/1.1\r\nHOST: " ++ localIp
    ++ ascii "\r\nMX: 5\r\nSERVICE: PCSS/1.0\r\n") (ascii "192.168.1.255") fujiPcssBroadcast)
  if rc = -1 then return -1 else return 0

/-- `close_all_sockets` for one of them. -/
def closeSocket (fd : Int) : DiscM Unit := do
  if fd > 0 then ask (.close fd) else return ()

/-- `close_all_sockets`. -/
def closeAllSockets : DiscM Unit := do
  let s ← get
  closeSocket s.conFd
  closeSocket s.regFd
  closeSocket s.tetherFd
  closeSocket s.pcssFd

/-- `try_connect_all_sockets`: the descriptor of registration. -/
def tryRegister : DiscM Int := do
  let s ← get
  if s.regFd = 0 then
    let fd ← openDgramSocket .register fujiAutosaveRegister
    modify fun s => { s with regFd := fd }
    if fd ≤ 0 then return -1 else return 0
  else return 0

/-- `try_connect_all_sockets`: the descriptor of connections. -/
def tryConnect : DiscM Int := do
  let s ← get
  if s.conFd = 0 then
    let fd ← openDgramSocket .connect fujiAutosaveConnect
    modify fun s => { s with conFd := fd }
    if fd ≤ 0 then return -1 else return 0
  else return 0

/-- `try_connect_all_sockets`: the descriptor of the tether server. -/
def tryTether (localIp : List UInt8) : DiscM Int := do
  let s ← get
  if s.tetherFd = 0 then
    let fd ← fujiOpenTetherServer localIp
    modify fun s => { s with tetherFd := fd }
    if fd < 0 then return -1 else return 0
  else return 0

/-- `try_connect_all_sockets`: the descriptor of broadcasts. -/
def tryPcss : DiscM Int := do
  let s ← get
  if s.pcssFd = 0 then
    let fd ← openPcss
    modify fun s => { s with pcssFd := fd }
    if fd < 0 then return -1 else return 0
  else return 0

/-- `try_connect_all_sockets`. -/
def tryConnectAllSockets (localIp : List UInt8) : DiscM Int := do
  let rc ← tryRegister
  if rc ≠ 0 then return rc
  else
    let rc ← tryConnect
    if rc ≠ 0 then return rc
    else
      let rc ← tryTether localIp
      if rc ≠ 0 then return rc else tryPcss

/-! ### The loop -/

/-- `state_idle`: the datagram of a camera, if there is one. -/
def receiveGreeting (u : Sock) (fd : Int) : DiscM (Option (List UInt8)) := do
  modify fun s => { s with info := { s.info with transport := .autosave } }
  let r : Option { bytes : List UInt8 // bytes.length ≤ 1023 } ← ask (.recv u fd 1023)
  match r with
  | none =>
    -- the length is unsigned
    let _ ← ask (.storeBehind (2 ^ 32 - 1))
    let text : List UInt8 ← ask .readBehind
    return some text
  | some bytes => if bytes.val.length = 0 then return none else return some (cText bytes)

/-- `state_idle` for a datagram. -/
def onDatagram (u : Sock) (fd : Int) (accept : List UInt8 → DiscM Int) (result : Int) :
    DiscM Int := do
  let greeting ← receiveGreeting u fd
  match greeting with
  | none => return -1
  | some greeting =>
    let rc ← accept greeting
    if rc ≠ 0 then return -1 else return result

/-- `state_idle` for a camera that is tethered. -/
def onTether (fd : Int) : DiscM Int := do
  modify fun s => { s with info := { s.info with transport := .wirelessTether } }
  let rc ← fujiTetherAccept fd
  if rc ≠ 0 then return -1 else return fujiDGoPtp

/-- `state_idle`: the broadcast, unless there is no socket for it. -/
def broadcast (fd : Int) (localIp : List UInt8) : DiscM Int :=
  if fd ≠ 0 then sendPcssDatagram fd localIp else return 0

/-- `state_idle`. -/
def stateIdle (localIp : List UInt8) : DiscM Int := do
  let s ← get
  let sent ← broadcast s.pcssFd localIp
  if sent ≠ 0 then return -1
  else
    let r : Int × List Int ← ask (.select ([s.regFd, s.conFd, s.tetherFd].filter (· > 0)) [] 1)
    if r.1 < 0 then return -1
    else if s.regFd > 0 ∧ s.regFd ∈ r.2 then
      onDatagram .register s.regFd acceptRegister fujiDRegistered
    else if s.conFd > 0 ∧ s.conFd ∈ r.2 then
      onDatagram .connect s.conFd acceptConnect fujiDGoPtp
    else if s.tetherFd > 0 ∧ s.tetherFd ∈ r.2 then onTether s.tetherFd
    else
      let cancelled : Bool ← ask .checkCancel
      if cancelled = true then return fujiDCanceled else return 0

/-- The loop of `fuji_discover_thread`, `n` times more at most. -/
def idleLoop (localIp : List UInt8) : ℕ → DiscM Int
  | 0 => hang
  | n + 1 => do
    let rc ← stateIdle localIp
    if rc = 0 then idleLoop localIp n else return rc

/-- `fuji_discover_thread` with the sockets. -/
def discover (fuel : ℕ) (localIp : List UInt8) : DiscM Int := do
  let rc ← tryConnectAllSockets localIp
  if rc = 0 then idleLoop localIp fuel else return rc

/-- The state in which `fuji_discover_thread` begins. -/
def startState (clientName : List UInt8) : DiscoveryState where
  info := { DiscoverInfo.zero with clientName := snprintf64 clientName (.replicate 64 0) }
  regFd := 0
  conFd := 0
  tetherFd := 0
  pcssFd := 0

/-- `fuji_discover_thread`. -/
def fujiDiscoverThread (fuel : ℕ) (clientName : List UInt8) : DiscM Int := do
  modify fun _ => startState clientName
  let local_ ← getLocalIp
  if local_.1 ≠ 0 then return -1
  else
    let rc ← discover fuel local_.2
    closeAllSockets
    return rc

end Discovery

end Fuji
