/-
The transport of a connection (`on_try_connect_wifi` in `module.c`).

The transport is selected by the setup option or by discovery, and what follows branches on it:
`fuji_get_events`, the downloads, the modes.  `fuji_setup` writes it in one place, for cameras of
the older app behind a Bluetooth handoff (`fujiSetup_transport`).  `fujitether_setup` hands over to the
USB setup, which writes the transport of a USB mode (`fujitetherSetup_transport`).

`onTryConnectWifi_transport_iff`: a connection that is set up has the transport that was selected,
just if that is not wireless tethering.
-/
import LibFuji.ConnectWifi

namespace Fuji

open Interaction

/-! ### What setup keeps -/

/-- Two states agree on the transport and on the version that decides about it. -/
structure SameSession (s s' : PtpRuntime) : Prop where
  transport : s'.transport = s.transport
  remoteVersion : s'.remoteVersion = s.remoteVersion

instance : Std.Refl SameSession := ⟨fun _ => ⟨rfl, rfl⟩⟩

instance : IsTrans PtpRuntime SameSession := ⟨fun _ _ _ h h' =>
  ⟨h'.transport.trans h.transport, h'.remoteVersion.trans h.remoteVersion⟩⟩

/-- Any operations. -/
abbrev AnyOp : Op → Prop := fun _ => True

instance : AppliesEvents (Within AnyOp SameSession) where
  ask s op r hop _ := ⟨by simp, Std.Refl.refl s⟩
  transact s c r hc := ⟨by simp, rfl, rfl⟩
  noteObject s oi := ⟨by simp, rfl, rfl⟩
  countItem s n := ⟨by simp, rfl, rfl⟩
  apply s e := ⟨by simp, rfl, rfl⟩

/-- A program that writes neither the transport nor the version. -/
abbrev KeepsSession {α : Type} (m : PtpM α) : Prop := Respects AnyOp SameSession m

section Keeps

variable {α β : Type}

theorem ask_keepsSession (op : Op) : KeepsSession (ask op) := respects_call trivial

theorem transactRc_keepsSession (c : PtpCommand) : KeepsSession (transactRc c) :=
  respects_bind (transact_respects (fun _ _ => ⟨rfl, rfl⟩) trivial) fun _ => respects_pure _

theorem andThen_keepsSession {m k : PtpM Rc} (hm : KeepsSession m) (hk : KeepsSession k) :
    KeepsSession (andThen m k) :=
  respects_bind hm fun _ => respects_ite (respects_pure _) hk

theorem fujiGetEvents_keepsSession : KeepsSession fujiGetEvents :=
  fujiGetEvents_obeys (P := Within AnyOp SameSession)

theorem handshake_keepsSession (deviceName : List UInt8) :
    KeepsSession (ptpipFujiConnectHandshake deviceName) :=
  ((handshake_confines deviceName).mono (fun _ _ => trivial) fun s _ h =>
    h ▸ Std.Refl.refl s).respects

theorem initConnection_keepsSession (clientName : List UInt8) :
    KeepsSession (initConnection clientName) := by
  have hshake := handshake_keepsSession clientName
  have hcancel {m : PtpM (Rc × List UInt8)} (hm : KeepsSession m) :
      KeepsSession (do
        let cancelled : Bool ← ask .checkThreadCancel
        if cancelled = true then return (.canceled, []) else m) :=
    respects_bind (ask_keepsSession _) fun _ => respects_ite (respects_pure _) hm
  refine respects_bind hshake fun r => respects_ite (hcancel hshake) ?_
  refine respects_ite (hcancel ?_) (respects_pure _)
  exact respects_bind (ask_keepsSession _) fun _ => hcancel hshake

theorem openSession_keepsSession : KeepsSession openSession := by
  refine respects_bind (respects_modify fun _ => ⟨rfl, rfl⟩) fun _ => ?_
  refine respects_bind respects_get fun r => respects_bind (transactRc_keepsSession _) fun _ => ?_
  refine respects_ite ?_ (respects_pure _)
  exact respects_bind (ask_keepsSession _) fun _ => respects_ite (respects_pure _) (respects_pure _)

theorem waitForAccess_keepsSession (fuel : ℕ) : KeepsSession (waitForAccess fuel) := by
  have hloop (n : ℕ) : KeepsSession (waitLoop n) := by
    induction n with
    | zero => exact respects_hang
    | succ n ih =>
      refine respects_bind respects_get fun _ => respects_ite ?_ (respects_pure _)
      exact andThen_keepsSession fujiGetEvents_keepsSession
        (respects_bind (ask_keepsSession _) fun _ => ih)
  exact andThen_keepsSession fujiGetEvents_keepsSession (hloop fuel)

theorem fujiConfigInitMode_keepsSession : KeepsSession fujiConfigInitMode :=
  respects_bind respects_get fun _ =>
    andThen_keepsSession (transactRc_keepsSession _) fujiGetEvents_keepsSession

theorem fujiXappConfigGallery_keepsSession : KeepsSession fujiXappConfigGallery := by
  refine andThen_keepsSession (transactRc_keepsSession _) ?_
  refine respects_bind (ask_keepsSession _) fun val => ?_
  refine respects_bind (ask_keepsSession _) fun _ => ?_
  refine respects_bind (respects_modify fun _ => ⟨rfl, rfl⟩) fun _ => ?_
  iterate 9 refine andThen_keepsSession (transactRc_keepsSession _) ?_
  exact transactRc_keepsSession _

theorem fujiConfigVersion_keepsSession : KeepsSession fujiConfigVersion := by
  have hconfirm (code : ℕ) : KeepsSession (confirmVersion code) :=
    andThen_keepsSession (transactRc_keepsSession _)
      (respects_bind (ask_keepsSession _) fun _ => transactRc_keepsSession _)
  have hversion : KeepsSession fujiConfigVersion_ :=
    respects_bind respects_get fun _ => respects_ite (respects_pure _) <|
      respects_ite (hconfirm _) <| respects_ite (hconfirm _) (transactRc_keepsSession _)
  exact respects_bind (ask_keepsSession _) fun _ => respects_bind hversion fun _ =>
    respects_bind (ask_keepsSession _) fun _ => respects_pure _

theorem readStorageName_keepsSession : KeepsSession readStorageName := by
  have hstore (name : String) : KeepsSession (do
      modify fun fuji => { fuji with storageDeviceName := name }
      return .ok : PtpM Rc) :=
    respects_bind (respects_modify fun _ => ⟨rfl, rfl⟩) fun _ => respects_pure _
  refine respects_bind (transactRc_keepsSession _) fun rc => ?_
  refine respects_ite (respects_bind (ask_keepsSession _) fun card => ?_)
    (respects_bind (respects_pure _) fun card => ?_)
  all_goals
    refine respects_ite (respects_bind (ask_keepsSession _) fun _ => hstore _) ?_
    exact respects_ite (hstore _) (respects_pure _)

theorem fujiConfigLiveview_keepsSession : KeepsSession fujiConfigLiveview := by
  have hxapp : KeepsSession xappConfigLiveview := by
    iterate 3 refine andThen_keepsSession (transactRc_keepsSession _) ?_
    exact respects_bind (ask_keepsSession _) fun _ => transactRc_keepsSession _
  have hresume : KeepsSession resumeRemoteMode :=
    andThen_keepsSession (transactRc_keepsSession _) <|
      andThen_keepsSession fujiGetEvents_keepsSession <|
      andThen_keepsSession (transactRc_keepsSession _) <|
      andThen_keepsSession (transactRc_keepsSession _) <|
      andThen_keepsSession (transactRc_keepsSession _) fujiGetEvents_keepsSession
  have hsockets : KeepsSession connectLiveviewSockets := by
    refine respects_bind respects_get fun _ => respects_ite ?_ (respects_pure _)
    refine andThen_keepsSession (ask_keepsSession _) (andThen_keepsSession (ask_keepsSession _) ?_)
    exact respects_bind (respects_modify fun _ => ⟨rfl, rfl⟩) fun _ => respects_pure _
  have hfollow : KeepsSession followCapture :=
    andThen_keepsSession fujiGetEvents_keepsSession
      (respects_bind (ask_keepsSession _) fun _ => hsockets)
  have hcapture : KeepsSession openCapture :=
    respects_bind (respects_modify fun _ => ⟨rfl, rfl⟩) fun _ =>
      andThen_keepsSession (transactRc_keepsSession _) hfollow
  refine respects_bind respects_get fun _ => ?_
  refine andThen_keepsSession (respects_ite hxapp (respects_pure _)) ?_
  refine respects_bind respects_get fun _ => respects_ite ?_ (respects_pure _)
  exact andThen_keepsSession (respects_ite hresume (respects_pure _)) hcapture

theorem fujiEndLiveview_keepsSession : KeepsSession fujiEndLiveview := by
  refine respects_bind respects_get fun _ => respects_ite (respects_pure _) ?_
  exact andThen_keepsSession fujiGetEvents_keepsSession
    (respects_bind respects_get fun _ => transactRc_keepsSession _)

theorem fujiConfigImageGallery_keepsSession : KeepsSession fujiConfigImageGallery := by
  have hevents := fujiGetEvents_keepsSession
  have hversion : KeepsSession configGalleryVersion := by
    refine andThen_keepsSession hevents (respects_bind (transactRc_keepsSession _) fun rc => ?_)
    refine respects_bind (ask_keepsSession _) fun _ => ?_
    refine respects_bind (respects_modify fun _ => ⟨rfl, rfl⟩) fun _ => ?_
    exact respects_ite (respects_pure _) (transactRc_keepsSession _)
  refine respects_bind respects_get fun _ => respects_ite (respects_pure _) ?_
  refine respects_ite ?_ (respects_pure _)
  refine andThen_keepsSession hevents (andThen_keepsSession (transactRc_keepsSession _) ?_)
  refine andThen_keepsSession hevents (andThen_keepsSession hevents ?_)
  refine respects_bind respects_get fun _ => respects_ite ?_ ?_
  · exact andThen_keepsSession (transactRc_keepsSession _)
      (andThen_keepsSession fujiXappConfigGallery_keepsSession hevents)
  · exact andThen_keepsSession (transactRc_keepsSession _) (andThen_keepsSession hversion hevents)

/-- What follows the mode keeps the session. -/
theorem configureGallery_keepsSession : KeepsSession configureGallery := by
  have hupdate : KeepsSession appUpdateStorageInfo :=
    appUpdateStorageInfo_obeys (P := Within AnyOp SameSession)
  have hliveview : KeepsSession tryLiveview := by
    refine respects_bind respects_get fun _ => respects_ite ?_ (respects_pure _)
    exact andThen_keepsSession fujiConfigLiveview_keepsSession
      (andThen_keepsSession fujiEndLiveview_keepsSession fujiConfigImageGallery_keepsSession)
  refine respects_bind respects_get fun _ => respects_ite (respects_pure _) ?_
  refine andThen_keepsSession fujiConfigVersion_keepsSession ?_
  refine respects_bind respects_get fun _ => ?_
  refine andThen_keepsSession (respects_ite (transactRc_keepsSession _) (respects_pure _)) ?_
  exact andThen_keepsSession readStorageName_keepsSession
    (respects_bind hupdate fun _ => hliveview)

end Keeps

/-! ### The transport behind setup -/

/-- The transport of a camera with a remote version: an older camera does not speak to the newer
app. -/
def settled (transport : FujiTransport) (remoteVersion : Int32) : FujiTransport :=
  if remoteVersion < 0x20007 ∧ transport = .xappWirelessComm then .wirelessComm else transport

section Setup

variable {s s' : PtpRuntime} {h : History} {fuel : ℕ} {clientName : List UInt8}

theorem exec_of_andThen {m k : PtpM Rc} (hrun : Exec (andThen m k) s h .ok s') :
    ∃ h₁ s₁ h₂, h = h₁ ++ h₂ ∧ Exec m s h₁ .ok s₁ ∧ Exec k s₁ h₂ .ok s' := by
  obtain ⟨h₁, rc, s₁, h₂, rfl, hm, hrun₁⟩ := exec_of_bind hrun
  by_cases hrc : rc ≠ .ok
  · rw [if_pos hrc] at hrun₁
    cases hrun₁
    exact absurd rfl hrc
  · rw [if_neg hrc] at hrun₁
    obtain rfl := not_not.mp hrc
    exact ⟨h₁, s₁, h₂, rfl, hm, hrun₁⟩

/-- The version that is read last decides. -/
theorem readVersions_transport (hrun : Exec readVersions s h .ok s') :
    s'.transport = settled s.transport s'.remoteVersion := by
  have hread {code : ℕ} {store : Int32 → PtpRuntime → PtpRuntime} {s s' : PtpRuntime} {h : History}
      (hrun : Exec (readVersion code store) s h .ok s') :
      ∃ v payload, s' = store v (s.answered payload) := by
    obtain ⟨h₁, s₁, h₂, rfl, hget, hrest⟩ := exec_of_andThen hrun
    obtain ⟨r, h₃, rfl, hret⟩ := exec_transact_bind.mp hget
    obtain ⟨-, -, rfl⟩ := hret.eq_of_ret rfl
    obtain ⟨v, h₄, rfl, hmodify⟩ := exec_ask_bind.mp hrest
    cases hmodify
    exact ⟨v, r.payload, rfl⟩
  obtain ⟨_, s₁, _, -, hobject, hrun₁⟩ := exec_of_andThen hrun
  obtain ⟨_, s₂, _, -, hremote, hrun₂⟩ := exec_of_andThen hrun₁
  obtain ⟨_, s₃, _, -, himage, hversion⟩ := exec_of_andThen hrun₂
  obtain ⟨_, _, rfl⟩ := hread hobject
  obtain ⟨_, _, rfl⟩ := hread hremote
  obtain ⟨_, _, rfl⟩ := hread himage
  obtain ⟨_, _, rfl⟩ := hread hversion
  rfl

/-- What keeps the session behind `readVersions` keeps its transport. -/
theorem SameSession.settled {s₁ s₂ : PtpRuntime} {transport : FujiTransport}
    (hsame : SameSession s₁ s₂) (hs : s₁.transport = Fuji.settled transport s₁.remoteVersion) :
    s₂.transport = Fuji.settled transport s₂.remoteVersion := by
  rw [hsame.transport, hsame.remoteVersion, hs]

theorem configure_transport (hrun : Exec configure s h .ok s') :
    s'.transport = settled s.transport s'.remoteVersion := by
  obtain ⟨h₁, s₁, h₂, -, hversions, hrest⟩ := exec_of_andThen hrun
  have hgallery : KeepsSession (do
      let fuji ← get
      if fuji.transport = .xappWirelessComm then
        let rc ← fujiXappConfigGallery
        if rc ≠ .ok ∧ rc ≠ .checkCode then return rc else configureGallery
      else configureGallery) := by
    refine respects_bind respects_get fun _ => respects_ite ?_ configureGallery_keepsSession
    exact respects_bind fujiXappConfigGallery_keepsSession fun _ =>
      respects_ite (respects_pure _) configureGallery_keepsSession
  have hkeeps := andThen_keepsSession fujiConfigInitMode_keepsSession hgallery
  exact (hkeeps _ _ _ _ hrest).2.settled (readVersions_transport hversions)

/-- **The transport behind `fuji_setup`.** -/
theorem fujiSetup_transport (hs : s.transport ≠ .wirelessTether)
    (hrun : Exec (fujiSetup fuel clientName) s h .ok s') :
    s'.transport = settled s.transport s'.remoteVersion := by
  obtain ⟨h₁, r, s₁, h₂, rfl, hinit, hrun₁⟩ := exec_of_bind hrun
  have hs₁ := (initConnection_keepsSession clientName _ _ _ _ hinit).2
  by_cases hr : r.1 ≠ .ok
  · rw [if_pos hr] at hrun₁
    exact absurd (hrun₁.eq_of_ret rfl).2.1.symm hr
  rw [if_neg hr] at hrun₁
  obtain ⟨_, h₃, rfl, hrun₂⟩ := exec_ask_bind.mp hrun₁
  have hsession {t : History} (hrun₃ : Exec (andThen openSession (setupSession fuel)) s₁ t .ok s') :
      s'.transport = settled s.transport s'.remoteVersion := by
    obtain ⟨_, s₂, h₄, -, hopen, hsetup⟩ := exec_of_andThen hrun₃
    have hs₂ := (openSession_keepsSession _ _ _ _ hopen).2
    have htransport : s₂.transport = s.transport := hs₂.transport.trans hs₁.transport
    have hsetup₁ := exec_get_bind.mp hsetup
    rw [if_neg (by rwa [htransport])] at hsetup₁
    obtain ⟨_, s₃, _, -, hwait, hconfigure⟩ := exec_of_andThen (exec_modify_bind.mp hsetup₁)
    have hs₃ : s₃.transport = s₂.transport := (waitForAccess_keepsSession fuel _ _ _ _ hwait).2.1
    rw [configure_transport hconfigure, hs₃, htransport]
  have hrun₃ := exec_get_bind.mp hrun₂
  by_cases hcomm : s₁.transport = .wirelessComm ∨ s₁.transport = .xappWirelessComm
  · rw [if_pos hcomm] at hrun₃
    obtain ⟨_, h₄, rfl, hrun₄⟩ := exec_ask_bind.mp hrun₃
    exact hsession hrun₄
  · rw [if_neg hcomm] at hrun₃
    exact hsession hrun₃

/-- The USB setup leaves the transport of a USB mode. -/
theorem fujiusbSetup_transport (hrun : Exec fujiusbSetup s h .ok s') :
    s'.transport ≠ .wirelessTether := by
  have husb := usbRun_of_exec hrun
  generalize hok : Rc.ok = rc at husb
  cases husb with
  | noSession r₁ hsession => exact absurd (.inr hok.symm) hsession
  | noInfo r₁ r₂ hsession hinfo => exact absurd hok.symm hinfo
  | noMode r₁ r₂ r₃ hsession hinfo hcheck hmode => exact absurd hok.symm hmode
  | cardReader r₁ r₂ r₃ hsession hinfo hcheck => cases hok
  | mode r₁ r₂ r₃ mode hsession hinfo hmode =>
    change transportOfMode mode ≠ .wirelessTether
    rw [transportOfMode]
    split_ifs <;> simp

theorem fujitetherSetup_transport (hrun : Exec (fujitetherSetup clientName) s h .ok s') :
    s'.transport ≠ .wirelessTether := by
  have hrun₀ := exec_get_bind.mp hrun
  by_cases hconnection : s.connectionType = .ipUsb
  · rw [if_pos hconnection] at hrun₀
    obtain ⟨_, r₁, s₁, _, -, -, hrun₁⟩ := exec_of_bind hrun₀
    obtain ⟨_, r₂, s₂, _, -, -, hrun₂⟩ := exec_of_bind hrun₁
    obtain ⟨_, r₃, s₃, _, -, -, hrun₃⟩ := exec_of_bind hrun₂
    obtain ⟨_, r₄, s₄, _, -, -, hrun₄⟩ := exec_of_bind hrun₃
    by_cases hr : r₄.1 ≠ .ok
    · rw [if_pos hr] at hrun₄
      exact absurd (hrun₄.eq_of_ret rfl).2.1.symm hr
    · rw [if_neg hr] at hrun₄
      obtain ⟨_, _, rfl, hrun₅⟩ := exec_ask_bind.mp hrun₄
      obtain ⟨_, _, rfl, hrun₆⟩ := exec_ask_bind.mp hrun₅
      exact fujiusbSetup_transport hrun₆
  · rw [if_neg hconnection] at hrun₀
    exact fujiusbSetup_transport hrun₀

end Setup

/-! ### The transport of a connection -/

/-- The transport that is selected in a call: that of the setup option, or what discovery has found;
where neither says anything it stays that of a new runtime. -/
def selectedTransport (h : History) : FujiTransport :=
  if setupOptionOf h = some (some optionWifi) then .wirelessComm
  else if setupOptionOf h = some (some optionWifiFromBtXapp) then .xappWirelessComm
  else
    match discoveryOf h with
    | none => fujiPtpNew.transport
    | some (rc, info) => if rc = fujiDGoPtp then info.transport else fujiPtpNew.transport

/-- The connection has the transport that was selected, or the one it is downgraded to. -/
def KeepsSelected (transport : FujiTransport) (mod : ModulePriv) : Prop :=
  ∃ r, mod.r = some r ∧ r.transport = settled transport r.remoteVersion

section Connection

variable {mod mod' : ModulePriv} {r : PtpRuntime} {h : History} {fuel : ℕ}
  {clientName : List UInt8}

theorem supportScreens_same : Respects AnyOp Eq supportScreens := by
  have hget : Respects AnyOp Eq (withRuntime get) := by
    intro mod h a mod' hrun
    obtain ⟨r, r', hr, hget, rfl⟩ := exec_withRuntime.mp hrun
    cases hget
    refine ⟨by simp, ?_⟩
    rw [← hr]
  have hask (op : Op) : Respects AnyOp Eq (askMod op) := respects_call trivial
  have hgallery (fuji : PtpRuntime) : Respects AnyOp Eq (supportGallery fuji) :=
    respects_bind (hask _) fun _ => respects_bind (hask _) fun _ => hask _
  refine respects_bind hget fun fuji => ?_
  refine respects_ite (respects_bind (hask _) fun _ => hgallery fuji) ?_
  refine respects_ite (hgallery fuji) (respects_ite (hask _) ?_)
  refine respects_ite ?_ (respects_pure _)
  exact respects_bind (hask _) fun _ => respects_bind (hask _) fun _ =>
    respects_bind (hask _) fun _ => hask _

/-- A session that is started has its transport behind setup, unless it is a tether session. -/
theorem startSession_keepsSelected_iff (hr : mod.r = some r)
    (hrun : Exec (startSession fuel clientName) mod h .ok mod') :
    KeepsSelected r.transport mod' ↔ r.transport ≠ .wirelessTether := by
  rw [Exec, startSession, bind_of_ret (withRuntime_get hr)] at hrun
  by_cases htether : r.transport = .wirelessTether
  · rw [if_pos htether] at hrun
    obtain ⟨h₁, rc, mod₁, h₂, rfl, hsetup, hrun₁⟩ := exec_of_bind hrun
    obtain ⟨r₁, r', -, hsetup₁, rfl⟩ := exec_withRuntime.mp hsetup
    by_cases hrc : rc ≠ .ok
    · rw [if_pos hrc] at hrun₁
      exact absurd rfl (handlePtperr_spec hrun₁).1
    · rw [if_neg hrc] at hrun₁
      cases hrun₁
      obtain rfl := not_not.mp hrc
      refine iff_of_false ?_ (not_not.mpr htether)
      rintro ⟨_, ⟨⟩, hselected⟩
      refine fujitetherSetup_transport hsetup₁ (hselected.trans ?_)
      rw [htether]
      exact if_neg (by simp)
  · rw [if_neg htether] at hrun
    obtain ⟨h₁, rc, mod₁, h₂, rfl, hsetup, hrun₁⟩ := exec_of_bind hrun
    obtain ⟨r₁, r', hr₁, hsetup₁, rfl⟩ := exec_withRuntime.mp hsetup
    obtain rfl : r = r₁ := Option.some.inj (hr.symm.trans hr₁)
    by_cases hrc : rc ≠ .ok
    · rw [if_pos hrc] at hrun₁
      exact absurd rfl (cleanup_spec hrun₁).2.1
    · rw [if_neg hrc] at hrun₁
      obtain rfl := not_not.mp hrc
      obtain ⟨h₃, _, mod₂, h₄, -, hscreens, hret⟩ := exec_of_bind hrun₁
      cases hret
      refine iff_of_true ⟨r', ?_, fujiSetup_transport htether hsetup₁⟩ htether
      rw [← (supportScreens_same _ _ _ _ hscreens).2]

theorem connectAndStart_keepsSelected_iff {port : Int} {extraTimeout : ℕ} (hr : mod.r = some r)
    (hrun : Exec (connectAndStart port extraTimeout fuel clientName) mod h .ok mod') :
    KeepsSelected r.transport mod' ↔ r.transport ≠ .wirelessTether := by
  rw [Exec, connectAndStart, bind_of_ret (withRuntime_get hr)] at hrun
  obtain ⟨rc, h₁, rfl, hrun₁⟩ := exec_call_bind.mp hrun
  by_cases hrc : (rc : Rc) ≠ .ok
  · rw [if_pos hrc] at hrun₁
    exact absurd rfl (cleanup_spec hrun₁).2.1
  · rw [if_neg hrc] at hrun₁
    exact startSession_keepsSelected_iff hr hrun₁

theorem connectAccessPoint_keepsSelected_iff {transport : FujiTransport} (hr : mod.r = some r)
    (hrun : Exec (connectAccessPoint transport fuel clientName) mod h .ok mod') :
    KeepsSelected transport mod' ↔ transport ≠ .wirelessTether := by
  rw [Exec, connectAccessPoint, bind_of_ret (selectCamera_eq hr _ _)] at hrun
  exact connectAndStart_keepsSelected_iff rfl hrun

theorem connectDiscovered_keepsSelected_iff (hr : mod.r = some fujiPtpNew)
    (hrun : Exec (connectDiscovered fuel clientName) mod h .ok mod') :
    ∃ d, discoveryOf h = some d ∧
      let transport := if d.1 = fujiDGoPtp then d.2.transport else fujiPtpNew.transport
      KeepsSelected transport mod' ↔ transport ≠ .wirelessTether := by
  obtain ⟨d, h₁, rfl, hrun₁⟩ := exec_call_bind.mp hrun
  refine ⟨d, rfl, ?_⟩
  by_cases hneg : d.1 < 0
  · rw [if_pos hneg] at hrun₁
    exact absurd rfl (cleanup_spec hrun₁).2.1
  rw [if_neg hneg] at hrun₁
  by_cases hgo : d.1 = fujiDGoPtp
  · rw [if_pos hgo, Exec, bind_of_ret (selectCamera_eq hr _ _)] at hrun₁
    obtain ⟨_, h₂, rfl, hrun₂⟩ := exec_call_bind.mp hrun₁
    rw [if_pos hgo]
    exact connectAndStart_keepsSelected_iff rfl hrun₂
  rw [if_neg hgo] at hrun₁ ⊢
  by_cases hregistered : d.1 = fujiDRegistered
  · rw [if_pos hregistered] at hrun₁
    cases hrun₁
  · rw [if_neg hregistered] at hrun₁
    exact startSession_keepsSelected_iff hr hrun₁

/-- **A connection keeps the transport that was selected just if that is not wireless
tethering.** -/
theorem onTryConnectWifi_transport_iff {job : Int}
    (hrun : Exec (onTryConnectWifi fuel job) mod h .ok mod') :
    KeepsSelected (selectedTransport h) mod' ↔ selectedTransport h ≠ .wirelessTether := by
  obtain ⟨name, h₁, rfl, hrun₁⟩ := exec_call_bind.mp (exec_modify_bind.mp hrun)
  obtain ⟨option, h₂, rfl, hrun₂⟩ := exec_call_bind.mp hrun₁
  have hoption : setupOptionOf (⟨.clientName, name⟩ :: ⟨.setupOption, option⟩ :: h₂) =
      some option := rfl
  rw [selectedTransport, hoption]
  by_cases hnone : option = none
  · rw [if_pos hnone] at hrun₂
    cases hrun₂
  rw [if_neg hnone] at hrun₂
  by_cases hwifi : option = some optionWifi
  · rw [if_pos hwifi] at hrun₂
    rw [if_pos (by rw [hwifi])]
    exact connectAccessPoint_keepsSelected_iff rfl hrun₂
  rw [if_neg hwifi] at hrun₂
  rw [if_neg (by simpa using hwifi)]
  by_cases hxapp : option = some optionWifiFromBtXapp
  · rw [if_pos hxapp] at hrun₂
    rw [if_pos (by rw [hxapp])]
    exact connectAccessPoint_keepsSelected_iff rfl hrun₂
  rw [if_neg hxapp] at hrun₂
  rw [if_neg (by simpa using hxapp)]
  by_cases hlocal : option = some optionLocalNetwork
  · rw [if_pos hlocal] at hrun₂
    obtain ⟨d, hd, hiff⟩ := connectDiscovered_keepsSelected_iff rfl hrun₂
    have hdiscovery : discoveryOf (⟨.clientName, name⟩ :: ⟨.setupOption, option⟩ :: h₂) =
      some d := hd
    rw [hdiscovery]
    exact hiff
  · rw [if_neg hlocal] at hrun₂
    exact absurd rfl (cleanup_spec hrun₂).2.1

/-- A camera that is its own access point, grants access, and accepts everything. -/
def accessPoint : (op : Op) → op.Ret
  | .ptp .getDeviceInfo => ⟨.ok, [], ⟨[], []⟩⟩
  | .ptp (.getObjectInfo _) => ⟨.ok, [], .zero⟩
  | .ptp (.getObjectHandles _ _ _) => ⟨.ok, [], []⟩
  | .ptp (.getPropValue _) => ⟨.ok, accessList.encode, ()⟩
  | .ptp .openSession => ⟨.ok, [], 0x2001⟩
  | .ptp (.send _ _) | .ptp (.setPropValue _ _) | .ptp (.setPropValue16 _ _)
  | .ptp (.setPropValueData _ _ _) | .ptp (.getPartialObject _ _ _) | .ptp (.getObject _)
  | .ptp (.getThumbnail _) | .ptp (.initOpenCapture _ _) | .ptp (.terminateOpenCapture _)
  | .ptp (.deleteObject _) | .ptp (.sendObjectInfo _ _ _) | .ptp (.sendObject _ _) => ⟨.ok, [], ()⟩
  | .cmdWrite data => (data.length : Int)
  | .cmdRead 0 _ => ((4, ByteCodec.leBytes 4 0x52) : Int × List UInt8)
  | .cmdRead _ _ => ((4, ByteCodec.leBytes 4 ptpipInitCommandAck) : Int × List UInt8)
  | .setupOption => some optionWifi
  | .clientName => ([] : List UInt8)
  | .parsePropValue => (0x20006 : Int32)
  | .ptpipConnect _ _ _ | .connectEvents _ _ | .connectVideo _ _ | .usbGetStatus => Rc.ok
  | .discoverThread _ => ((-1, .zero) : Int × DiscoverInfo)
  | .returnCode => (0 : UInt16)
  | .outOfBounds _ | .unwritten _ => (0 : UInt8)
  | .outOfArray _ => (0 : UInt32)
  | .checkThreadCancel | .btDeviceUpdate | .fopen _ _ => false
  | .handleAdd _ _ _ _ | .fileSize => (0 : Int)
  | .malloc _ => none
  | .fread _ => ([] : List UInt8)
  | .ptpClose | .mutexLock | .mutexUnlock | .reportDownloadSpeed _ | .updateObjectInfo _ _
  | .downloadInfo _ | .sendCamName _ | .fatalError _ | .setScreenSupported _ | .setWidget _ _
  | .setStorageInfo _ _ | .addFileMetadata _ _ | .addFileContents _ _ _ _ _ _ | .fclose | .fwrite _
  | .usleep _ => ()

/-- A connection to an access point keeps its transport. -/
theorem onTryConnectWifi_transport_accessPoint : ∃ h mod',
    Exec (onTryConnectWifi 1 1) idleModule h .ok mod' ∧ KeepsSelected .wirelessComm mod' := by
  have htrace : ((onTryConnectWifi 1 1 idleModule).trace accessPoint).map
      (fun r => (r.2.1, selectedTransport r.1)) = some (PakRc.ok, .wirelessComm) := by
    decide +kernel
  obtain ⟨⟨h, pak, mod'⟩, hsome, heq⟩ := Option.map_eq_some_iff.mp htrace
  obtain ⟨rfl, hselected⟩ := Prod.mk.inj heq
  have hrun := (Prog.runs_of_trace hsome).1
  refine ⟨h, mod', hrun, ?_⟩
  rw [← hselected]
  refine (onTryConnectWifi_transport_iff hrun).mpr ?_
  rw [hselected]
  decide

/-- A tether session does not. -/
theorem onTryConnectWifi_transport_lost : ¬ ∀ (fuel : ℕ) (job : Int) (mod : ModulePriv)
    (h : History) (mod' : ModulePriv), Exec (onTryConnectWifi fuel job) mod h .ok mod' →
      KeepsSelected (selectedTransport h) mod' := by
  intro hall
  obtain ⟨t, mod', hrun, -, htransport⟩ := onTryConnectWifi_run_tether
  obtain ⟨r, hr, hselected⟩ := hall _ _ _ _ _ hrun
  rw [hr, Option.map_some, hselected] at htransport
  have hsettled : settled .wirelessTether r.remoteVersion = .wirelessTether := if_neg (by simp)
  exact absurd (hsettled.symm.trans (Option.some.inj htransport)) (by simp)

end Connection

end Fuji
