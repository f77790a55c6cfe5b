/-
Connecting over USB (`fujiusb_setup` in `fuji_usb.c`, `on_try_connect_usb` in `module.c`).

The USB setup is ready when a session is open, the device info has been read, and the camera has
told its USB mode or has refused to, which makes it a card reader (`UsbReady`).  A session that is
open already is a refusal too, and no error; but every other refusal of a session is passed over as
well, and the refusal of the mode is returned.

`usbSetup_returns_iff`: when the setup, and with it `on_try_connect_usb`, returns 0 just on the paths
that are ready.
-/
import LibFuji.ConnectWifi

namespace Fuji

open Interaction

/-- `on_try_connect_usb`, where `connected` is the result of
`ptp_device_connect_from_libusb_handle`. -/
def onTryConnectUsb (connected : Rc) (job : Int) : ModM Rc := do
  modify fun mod =>
    { mod with currentJob := job, r := some { fujiPtpNew with connectionType := .usb } }
  if connected ≠ .ok then return connected
  else
    let rc ← withRuntime fujiusbSetup
    if rc ≠ .ok then return rc else return .ok

/-! ### What setup has to achieve -/

/-- A session has been opened, or is refused because there is one. -/
def SessionOpen (r : Resp .openSession) : Prop :=
  r.rc = .ok ∨ r.rc = .checkCode ∧ r.out = rcSessionAlreadyOpened

/-- A session is open, the device info has been read, and the transport is determined. -/
structure UsbReady (h : History) : Prop where
  session : ∃ r : Resp .openSession, ⟨.ptp .openSession, r⟩ ∈ h ∧ SessionOpen r
  info : ∃ r : Resp .getDeviceInfo, ⟨.ptp .getDeviceInfo, r⟩ ∈ h ∧ r.rc = .ok
  mode : ∃ r : Resp (.getPropValue dpcUSBMode), ⟨.ptp (.getPropValue dpcUSBMode), r⟩ ∈ h ∧
    (r.rc = .checkCode ∨ r.rc = .ok)

/-- The camera refuses the query of its USB mode. -/
def RefusesMode (h : History) : Prop :=
  ∃ r : Resp (.getPropValue dpcUSBMode), ⟨.ptp (.getPropValue dpcUSBMode), r⟩ ∈ h ∧
    r.rc = .checkCode

/-- The camera tells its USB mode. -/
def TellsMode (h : History) : Prop :=
  ∃ r : Resp (.getPropValue dpcUSBMode), ⟨.ptp (.getPropValue dpcUSBMode), r⟩ ∈ h ∧ r.rc = .ok

/-- The camera refuses a session, and not because there is one. -/
def RefusesSession (h : History) : Prop :=
  ∃ r : Resp .openSession, ⟨.ptp .openSession, r⟩ ∈ h ∧ r.rc = .checkCode ∧
    r.out ≠ rcSessionAlreadyOpened

/-- A camera that refuses its mode has refused the session, and one that has refused the session does
not tell its mode. -/
def RefusesAlike (h : History) : Prop :=
  (RefusesMode h → RefusesSession h) ∧ (RefusesSession h → ¬ TellsMode h)

section Queries

variable {s s' : PtpRuntime} {h : History} {rc : Rc} {r₁ : Resp .openSession}
  {r₂ : Resp .getDeviceInfo} {r₃ : Resp (.getPropValue dpcUSBMode)} {t : History}

/-- The answer to a query is the one in a history behind which there are no transactions. -/
theorem exists_mem_queries_iff {c : PtpCommand} {r : Resp c} {q : History} {P : Resp c → Prop}
    (ht : ∀ e ∈ t, ∀ c, e.1 ≠ .ptp c)
    (hq : ∀ r' : Resp c, ⟨.ptp c, r'⟩ ∈ q ↔ r' = r) :
    (∃ r' : Resp c, ⟨.ptp c, r'⟩ ∈ q ++ t ∧ P r') ↔ P r := by
  constructor
  · rintro ⟨r', hr', hP⟩
    rcases List.mem_append.mp hr' with hr' | hr'
    · exact (hq r').mp hr' ▸ hP
    · exact absurd rfl (ht _ hr' c)
  · exact fun hP => ⟨r, List.mem_append_left _ ((hq r).mpr rfl), hP⟩

theorem mem_usbQueries_session {r : Resp .openSession} :
    ⟨.ptp .openSession, r⟩ ∈ usbQueries r₁ r₂ r₃ ↔ r = r₁ := by
  simp [usbQueries]

theorem mem_usbQueries_info {r : Resp .getDeviceInfo} :
    ⟨.ptp .getDeviceInfo, r⟩ ∈ usbQueries r₁ r₂ r₃ ↔ r = r₂ := by
  simp [usbQueries]

theorem mem_usbQueries_mode {r : Resp (.getPropValue dpcUSBMode)} :
    ⟨.ptp (.getPropValue dpcUSBMode), r⟩ ∈ usbQueries r₁ r₂ r₃ ↔ r = r₃ := by
  simp [usbQueries]

theorem refusesAlike_usbQueries (ht : ∀ e ∈ t, ∀ c, e.1 ≠ .ptp c)
    (hsession : r₁.rc = .checkCode ∨ r₁.rc = .ok) :
    RefusesAlike (usbQueries r₁ r₂ r₃ ++ t) ↔
      (r₃.rc = .checkCode → ¬ SessionOpen r₁) ∧ (¬ SessionOpen r₁ → r₃.rc ≠ .ok) := by
  have hrefuses : RefusesSession (usbQueries r₁ r₂ r₃ ++ t) ↔ ¬ SessionOpen r₁ := by
    rw [RefusesSession, exists_mem_queries_iff ht fun _ => mem_usbQueries_session, SessionOpen]
    rcases hsession with hcheck | hok
    · simp [hcheck]
    · simp [hok]
  rw [RefusesAlike, hrefuses, RefusesMode, TellsMode,
    exists_mem_queries_iff ht fun _ => mem_usbQueries_mode,
    exists_mem_queries_iff ht fun _ => mem_usbQueries_mode]

theorem usbReady_usbQueries (ht : ∀ e ∈ t, ∀ c, e.1 ≠ .ptp c) (hinfo : r₂.rc = .ok) :
    UsbReady (usbQueries r₁ r₂ r₃ ++ t) ↔
      SessionOpen r₁ ∧ (r₃.rc = .checkCode ∨ r₃.rc = .ok) := by
  have hsession := exists_mem_queries_iff (P := SessionOpen) ht fun _ =>
    @mem_usbQueries_session r₁ r₂ r₃ _
  have hmode := exists_mem_queries_iff (P := fun r => r.rc = .checkCode ∨ r.rc = .ok) ht fun _ =>
    @mem_usbQueries_mode r₁ r₂ r₃ _
  have hread := exists_mem_queries_iff (P := fun r => r.rc = .ok) ht fun _ =>
    @mem_usbQueries_info r₁ r₂ r₃ _
  exact ⟨fun hready => ⟨hsession.mp hready.session, hmode.mp hready.mode⟩,
    fun hready => ⟨hsession.mpr hready.1, hread.mpr hinfo, hmode.mpr hready.2⟩⟩

/-- When the USB setup returns 0 just if it is ready. -/
theorem fujiusbSetup_returns_iff (hrun : Exec fujiusbSetup s h rc s') :
    (rc = .ok ↔ UsbReady h) ↔ RefusesAlike h := by
  have hnone : ∀ e ∈ ([] : History), ∀ c, e.1 ≠ .ptp c := by simp
  cases usbRun_of_exec hrun with
  | noSession r₁ hsession =>
    have hready : ¬ UsbReady [⟨.ptp .openSession, r₁⟩] := fun hready => by
      simpa using hready.info
    exact iff_of_true (iff_of_false (fun hok => hsession (.inr hok)) hready)
      ⟨by simp [RefusesMode], by simp [TellsMode]⟩
  | noInfo r₁ r₂ hsession hinfo =>
    have hready : ¬ UsbReady [⟨.ptp .openSession, r₁⟩, ⟨.ptp .getDeviceInfo, r₂⟩] :=
      fun hready => by simpa using hready.mode
    exact iff_of_true (iff_of_false hinfo hready) ⟨by simp [RefusesMode], by simp [TellsMode]⟩
  | noMode r₁ r₂ r₃ hsession hinfo hcheck hmode =>
    rw [← List.append_nil (usbQueries r₁ r₂ r₃), usbReady_usbQueries hnone hinfo,
      refusesAlike_usbQueries hnone hsession]
    exact iff_of_true (iff_of_false hmode fun hready => hready.2.elim hcheck hmode)
      ⟨fun hrefused => absurd hrefused hcheck, fun _ => hmode⟩
  | cardReader r₁ r₂ r₃ hsession hinfo hcheck =>
    rw [← List.append_nil (usbQueries r₁ r₂ r₃), usbReady_usbQueries hnone hinfo,
      refusesAlike_usbQueries hnone hsession]
    simp [hcheck]
  | mode r₁ r₂ r₃ mode hsession hinfo hmode =>
    have hparse : ∀ e ∈ [(⟨.parsePropValue, mode⟩ : Event Op Op.Ret)], ∀ c, e.1 ≠ .ptp c := by simp
    rw [usbReady_usbQueries hparse hinfo, refusesAlike_usbQueries hparse hsession]
    simp [hmode]

/-- A camera in its mode for tethering that refuses a session with this code. -/
theorem exec_fujiusbSetup_tether (code : UInt16) : ∃ s', Exec fujiusbSetup fujiPtpNew
    (usbQueries ⟨.checkCode, [], code⟩ ⟨.ok, [], ⟨[], []⟩⟩ ⟨.ok, [], ()⟩ ++
      [⟨.parsePropValue, fujiUsbModeTether⟩]) .ok s' := by
  have hrun : Exec fujiusbSetup fujiPtpNew _ .ok _ :=
    exec_bind (exec_transactRc ⟨.checkCode, [], code⟩) <| exec_ite_neg (by simp) <|
      exec_bind (exec_transact ⟨.ok, [], (⟨[], []⟩ : DeviceInfo)⟩) <| exec_ite_neg (by simp) <|
      exec_bind (exec_ask ()) <| exec_bind (exec_transactRc ⟨.ok, [], ()⟩) <|
      exec_ite_neg (by simp) <| exec_ite_neg (by simp) <| exec_bind (exec_ask fujiUsbModeTether) <|
      exec_bind (exec_modify _) (exec_pure _)
  exact ⟨_, hrun⟩

/-- The results of the two functions. -/
theorem onTryConnectUsb_run {connected : Rc} {job : Int} {mod mod' : ModulePriv}
    (hrun : Exec (onTryConnectUsb connected job) mod h rc mod') :
    connected ≠ .ok ∧ h = [] ∧ rc = connected ∨
      connected = .ok ∧ ∃ s s', Exec fujiusbSetup s h rc s' := by
  have hrun₁ := exec_modify_bind.mp hrun
  by_cases hconnected : connected ≠ .ok
  · rw [if_pos hconnected] at hrun₁
    cases hrun₁
    exact .inl ⟨hconnected, rfl, rfl⟩
  rw [if_neg hconnected] at hrun₁
  refine .inr ⟨not_not.mp hconnected, ?_⟩
  obtain ⟨h₁, rc₁, mod₁, h₂, rfl, hsetup, hrest⟩ := exec_of_bind hrun₁
  obtain ⟨s, s', -, hsetup₁, -⟩ := exec_withRuntime.mp hsetup
  refine ⟨s, s', ?_⟩
  by_cases hrc : rc₁ ≠ .ok
  · rw [if_pos hrc] at hrest
    cases hrest
    rwa [List.append_nil]
  · rw [if_neg hrc] at hrest
    cases hrest
    rw [not_not.mp hrc] at hsetup₁
    rwa [List.append_nil]

end Queries

/-- **When the USB setup, and with it the connection, returns 0 just on the paths on which it
should.** -/
theorem usbSetup_returns_iff (h : History) (rc : Rc) :
    (∀ s s', Exec fujiusbSetup s h rc s' → ((rc = .ok ↔ UsbReady h) ↔ RefusesAlike h)) ∧
      ∀ connected job mod mod', Exec (onTryConnectUsb connected job) mod h rc mod' →
        ((rc = .ok ↔ connected = .ok ∧ UsbReady h) ↔ RefusesAlike h) := by
  refine ⟨fun s s' hrun => fujiusbSetup_returns_iff hrun, ?_⟩
  intro connected job mod mod' hrun
  rcases onTryConnectUsb_run hrun with ⟨hconnected, rfl, rfl⟩ | ⟨rfl, s, s', hsetup⟩
  · exact iff_of_true (iff_of_false hconnected fun hready => hconnected hready.1)
      ⟨by simp [RefusesMode], by simp [TellsMode]⟩
  · rw [and_iff_right rfl]
    exact fujiusbSetup_returns_iff hsetup

/-- A camera in its mode for tethering, with a session that is open already. -/
theorem usbSetup_returns_tether : ∃ h s', Exec fujiusbSetup fujiPtpNew h .ok s' ∧ UsbReady h := by
  obtain ⟨s', hrun⟩ := exec_fujiusbSetup_tether rcSessionAlreadyOpened
  refine ⟨_, s', hrun, (((usbSetup_returns_iff _ _).1 _ _ hrun).mpr ?_).mp rfl⟩
  rw [refusesAlike_usbQueries (by simp) (.inl rfl)]
  simp [SessionOpen]

/-- A card reader is taken for an error, and a session that is refused because the camera is busy
for one that is open. -/
theorem usbSetup_misreports :
    (∃ h s', Exec fujiusbSetup fujiPtpNew h .checkCode s' ∧ UsbReady h) ∧
      ∃ h s', Exec fujiusbSetup fujiPtpNew h .ok s' ∧ ¬ UsbReady h := by
  constructor
  · let r₂ : Resp .getDeviceInfo := ⟨.ok, [], ⟨[], []⟩⟩
    have hrun : Exec fujiusbSetup fujiPtpNew _ .checkCode _ :=
      exec_bind (exec_transactRc ⟨.ok, [], (0x2001 : UInt16)⟩) <| exec_ite_neg (by simp) <|
        exec_bind (exec_transact r₂) <| exec_ite_neg (by simp [r₂]) <| exec_bind (exec_ask ()) <|
        exec_bind (exec_transactRc ⟨.checkCode, [], ()⟩) <| exec_ite_pos rfl <|
        exec_bind (exec_modify _) (exec_pure _)
    have hready : UsbReady (usbQueries ⟨.ok, [], 0x2001⟩ r₂ ⟨.checkCode, [], ()⟩ ++ []) :=
      (usbReady_usbQueries (by simp) rfl).mpr ⟨.inl rfl, .inl rfl⟩
    exact ⟨_, _, hrun, hready⟩
  · obtain ⟨s', hrun⟩ := exec_fujiusbSetup_tether 0x2019
    refine ⟨_, s', hrun, ?_⟩
    rw [usbReady_usbQueries (by simp) rfl]
    simp [SessionOpen, rcSessionAlreadyOpened]

end Fuji
