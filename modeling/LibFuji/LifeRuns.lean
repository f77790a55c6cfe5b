/-
Runs of the module: any calls, in any order.

* `lifeRun_conserves` — what has been made or handed to the module is held, has been given back, or
  is lost in one of the calls that drop it; `on_free` gives back all that is held;
* `lifeReaches_tracked` — a runtime is used only between `fuji_ptp_new` and its `ptp_close`, also
  in calls that do not finish;
* `lifeRun_fatal` — the frontend is told of an error that ends the session just in the calls that
  return `PAK_ERR_IO` without a Bluetooth device, or `PAK_ERR_DISCONNECTED`;
* `lifeRun_widgets` — with widgets that the frontend has been given since the last connection was
  begun, NULL is used just where the button that switches to WiFi is pressed without a Bluetooth
  device.
-/
import LibFuji.Ledger
import LibFuji.Lifecycle

namespace Fuji

open Interaction Ledger

/-! ### Runs -/

/-- A call that has returned. -/
structure Call where
  callback : Callback
  /-- what has been asked in front of it -/
  prior : LifeHistory
  /-- the module in front of it -/
  before : LifePriv
  history : LifeHistory
  rc : LifeRc

/-- `init`, and calls that have returned. -/
inductive LifeRun : List Call → LifeHistory → LifePriv → Prop
  | init {h : LifeHistory} {priv : LifePriv} (hrun : Exec init callocPriv h () priv) : LifeRun [] h priv
  | call {calls : List Call} {h h' : LifeHistory} {priv priv' : LifePriv} {c : Callback} {rc : LifeRc}
      (hrun : LifeRun calls h priv) (hcall : Exec c.program priv h' rc priv') :
      LifeRun (calls ++ [⟨c, h, priv, h', rc⟩]) (h ++ h') priv'

/-- How far the module can have come, in a call, or in `on_free` at the end. -/
inductive LifeReaches : LifeHistory → Prop
  | init {h : LifeHistory} (hreach : Reaches init callocPriv h) : LifeReaches h
  | call {calls : List Call} {h h' : LifeHistory} {priv : LifePriv} {c : Callback}
      (hrun : LifeRun calls h priv) (hreach : Reaches c.program priv h') : LifeReaches (h ++ h')
  | free {calls : List Call} {h h' : LifeHistory} {priv : LifePriv}
      (hrun : LifeRun calls h priv) (hreach : Reaches onFree priv h') : LifeReaches (h ++ h')

/-! ### Calls that do not connect -/

/-- The operations of the calls that look at arguments that may not be there. -/
def LifeOp.OfDevice : LifeOp → Prop
  | .bt _ _ => True
  | .nullDereference => True
  | _ => False

/-- Operations on what is not there. -/
def LifeOp.Blind : LifeOp → Prop
  | .bt dev _ => dev = false
  | .nullDereference => True
  | _ => False

def deviceLens : Lens LifeOp LifePriv := { lifeLens with steady := LifeOp.OfDevice }

/-- NULL may be worked on, too. -/
def lookLens : Lens LifeOp LifePriv :=
  { lifeLens with steady := fun op => op.Steady ∨ op.Blind }

section Look

variable {α : Type}

theorem onBluetooth_plain (dev : Bool) (m : BtM α) : Plain deviceLens (onBluetooth dev m) := by
  refine ⟨fun priv h a priv' hrun => ?_, (embed_all nonempty_btRet).mono ?_⟩
  · obtain ⟨bt, -, rfl⟩ := exec_embed (v := seenBluetooth) (fun _ _ => rfl) hrun
    refine ⟨rfl, by simp [deviceLens, lifeLens, LifePriv.held], rfl, ?_⟩
    rw [List.countP_eq_zero.mpr fun e he => ?_]
    · simp
    · obtain ⟨op, hop⟩ := embed_all nonempty_btRet _ _ hrun.reaches e he
      rw [hop]
      exact Bool.false_ne_true
  · rintro _ ⟨op, rfl⟩
    trivial

theorem onCommand_tidy (argv : List Command) : Tidy deviceLens (onCommand argv) LifeRc.pakCode := by
  refine tidy_get_bind fun priv => tidy_ite ?_ (tidy_other rfl)
  cases argv with
  | nil => exact tidy_bind (plain_call rfl trivial) fun _ => tidy_other rfl
  | cons command argv =>
    have hsend (params : Vector UInt8 2) : Tidy deviceLens (do
        let rc ← onBluetooth priv.dev (sendShutterCommand shutterCmd params)
        return .bt rc) LifeRc.pakCode :=
      tidy_bind (onBluetooth_plain _ _) fun _ => tidy_other rfl
    exact tidy_ite (hsend _) (tidy_ite (hsend _) (tidy_ite (hsend _) (tidy_other rfl)))

theorem setOption_tidy (f : PtpRuntime → PtpRuntime) :
    Tidy deviceLens (setOption f) LifeRc.pakCode := by
  refine ⟨fun priv h rc priv' hrun => ?_, issues_bind issues_get fun priv => ?_⟩
  · have hrun₀ := exec_get_bind.mp hrun
    cases hr : priv.r with
    | some r =>
      simp only [hr] at hrun₀
      cases hrun₀
      refine ends_nil ?_ (by simp [LifeRc.pakCode]) (by simp [LifeRc.pakCode])
      simp [deviceLens, lifeLens, LifePriv.held, hr]
    | none =>
      simp only [hr] at hrun₀
      have hnull : Tidy deviceLens (do askLife .nullDereference; return .pak .ok) LifeRc.pakCode :=
        tidy_bind (plain_call rfl trivial) fun _ => tidy_ok
      exact hnull.ends _ _ _ _ hrun₀
  · cases priv.r with
    | some r => exact issues_bind (issues_modify _) fun _ => issues_pure _
    | none => exact issues_bind (issues_call trivial) fun _ => issues_pure _

theorem onPropChanged_tidy (name : String) (v : Bool) :
    Tidy deviceLens (onPropChanged name v) LifeRc.pakCode := by
  refine tidy_ite ?_ (tidy_ite (setOption_tidy _) (tidy_ite (setOption_tidy _) tidy_ok))
  exact tidy_get_bind fun priv => tidy_bind (onBluetooth_plain _ _) fun _ => tidy_other rfl

/-- **Every call that does not connect** ends as its code says. -/
theorem Callback.tidy_look {c : Callback} (hconnects : c.connects = false) :
    Tidy lookLens c.program LifeRc.pakCode := by
  have hdevice (op : LifeOp) (hop : op.OfDevice) : op.Steady ∨ op.Blind := by
    cases op with
    | bt dev op =>
      cases dev with
      | true => exact .inl rfl
      | false => exact .inr rfl
    | nullDereference => exact .inr trivial
    | _ => exact hop.elim
  cases c with
  | customCommand argv => exact (onCommand_tidy argv).mono hdevice
  | widgetUpdated name v => exact (onPropChanged_tidy name v).mono hdevice
  | _ => exact (Callback.tidy hconnects rfl).mono fun _ => .inl

end Look

/-! ### Connections over WiFi -/

section Wifi

variable {α : Type} {fuel : ℕ} {clientName : List UInt8} {h : History} {mod : ModulePriv}

/-- There is a runtime, and it has not been closed. -/
def Started (h : History) (mod : ModulePriv) : Prop :=
  mod.r.isSome = true ∧ ∀ e ∈ h, e.1.OfRuntime

/-- `ptp_close` is the last that a connection does with its runtime. -/
def ClosesLast (h : History) : Prop := ∀ e ∈ h.dropLast, e.1 ≠ .ptpClose

/-- What a connection leaves: its runtime, or none, if it has been closed. -/
def LeavesRuntime (h : History) (mod : ModulePriv) : Prop :=
  if mod.r.isSome = true then ∀ e ∈ h, e.1 ≠ .ptpClose
  else ∃ h₁, h = h₁ ++ [⟨.ptpClose, ()⟩] ∧ ∀ e ∈ h₁, e.1.OfRuntime

theorem Op.OfRuntime.ne_close {op : Op} (hop : op.OfRuntime) : op ≠ .ptpClose := by
  rintro rfl
  exact hop

theorem Started.open (hstart : Started h mod) : ∀ e ∈ h, e.1 ≠ .ptpClose :=
  fun e he => (hstart.2 e he).ne_close

theorem closesLast_of_open (hopen : ∀ e ∈ h, e.1 ≠ .ptpClose) : ClosesLast h :=
  fun e he => hopen e (List.dropLast_subset h he)

/-- What does not close the runtime may be the end. -/
theorem always_leaves {m : ModM α} (hm : Issues (· ≠ .ptpClose) m)
    (hkeep : ∀ mod h a mod', Exec m mod h a mod' → mod'.r.isSome = mod.r.isSome)
    (hstart : Started h mod) :
    Always ClosesLast m (fun h' _ mod' => LeavesRuntime h' mod') h mod := by
  refine ⟨fun t hreach => closesLast_of_open ?_, fun t a mod' hrun => ?_⟩
  · exact List.forall_mem_append.mpr ⟨hstart.open, hm _ _ hreach⟩
  · rw [LeavesRuntime, if_pos ((hkeep _ _ _ _ hrun).trans hstart.1)]
    exact List.forall_mem_append.mpr ⟨hstart.open, hm _ _ hrun.reaches⟩

theorem always_started {m : ModM α} (hm : Issues Op.OfRuntime m) (hplain : Plain modLens m)
    (hstart : Started h mod) : Always ClosesLast m (fun h' _ mod' => Started h' mod') h mod := by
  refine ⟨fun t hreach => closesLast_of_open ?_, fun t a mod' hrun => ⟨?_, ?_⟩⟩
  · exact List.forall_mem_append.mpr ⟨hstart.open, fun e he => (hm _ _ hreach e he).ne_close⟩
  · exact (hplain.ends _ _ _ _ hrun).runtime.trans hstart.1
  · exact List.forall_mem_append.mpr ⟨hstart.2, hm _ _ hrun.reaches⟩

/-- Part of a connection that runs on the runtime. -/
theorem always_runtime {m : PtpM α} (hm : Issues Op.OfRuntime m) (hstart : Started h mod) :
    Always ClosesLast (withRuntime m) (fun h' _ mod' => Started h' mod') h mod :=
  always_started (withRuntime_issues hm) (withRuntime_plain hm) hstart

theorem always_askMod {op : Op} (hop : op.OfRuntime) (hstart : Started h mod) :
    Always ClosesLast (askMod op) (fun h' _ mod' => Started h' mod') h mod :=
  always_started (issues_call hop) (plain_call hop.isFatal_eq hop.steady) hstart

theorem always_return {a : α} (hstart : Started h mod) :
    Always ClosesLast (pure a : ModM α) (fun h' _ mod' => LeavesRuntime h' mod') h mod :=
  always_leaves (issues_pure a) (fun _ _ _ _ hrun => by cases hrun; rfl) hstart

theorem always_cleanup (hstart : Started h mod) :
    Always ClosesLast cleanup (fun h' _ mod' => LeavesRuntime h' mod') h mod := by
  have hlast : ClosesLast (h ++ [⟨.ptpClose, ()⟩]) := by
    rw [ClosesLast, List.dropLast_concat]
    exact hstart.open
  refine always_call_bind (closesLast_of_open hstart.open) fun _ => always_modify_bind.mpr ?_
  refine always_pure hlast ?_
  rw [LeavesRuntime, if_neg (by simp)]
  exact ⟨h, rfl, hstart.2⟩

theorem always_startSession (hstart : Started h mod) :
    Always ClosesLast (startSession fuel clientName) (fun h' _ mod' => LeavesRuntime h' mod') h mod := by
  have hscreens : Issues (· ≠ .ptpClose) (do supportScreens; return .ok : ModM PakRc) := by
    have hgallery (fuji : PtpRuntime) : Issues (· ≠ .ptpClose) (supportGallery fuji) :=
      issues_bind (issues_call (by simp)) fun _ => issues_bind (issues_call (by simp)) fun _ =>
        issues_call (by simp)
    refine issues_bind (issues_bind (withRuntime_issues issues_get) fun fuji => ?_) fun _ => issues_pure _
    refine issues_ite (issues_bind (issues_call (by simp)) fun _ => hgallery fuji) ?_
    refine issues_ite (hgallery fuji) (issues_ite (issues_call (by simp)) ?_)
    refine issues_ite (issues_bind (issues_call (by simp)) fun _ => ?_) (issues_pure _)
    exact issues_bind (issues_call (by simp)) fun _ => issues_bind (issues_call (by simp)) fun _ =>
      issues_call (by simp)
  refine always_bind (always_runtime issues_get hstart) fun _ fuji _ hstart => ?_
  refine always_ite (fun _ => ?_) fun _ => ?_
  · refine always_bind (always_runtime fujitetherSetup_ofRuntime hstart) fun _ rc _ hstart => ?_
    refine always_ite (fun _ => ?_) fun _ => always_return hstart
    exact always_leaves (issues_handlePtperr rc (by simp))
      (fun _ _ _ _ hrun => ((handlePtperr_tidy _ _).ends _ _ _ _ hrun).runtime) hstart
  · refine always_bind (always_runtime fujiSetup_ofRuntime hstart) fun _ rc _ hstart => ?_
    refine always_ite (fun _ => always_cleanup hstart) fun _ => ?_
    refine always_leaves hscreens (fun mod h pak mod' hrun => ?_) hstart
    obtain ⟨h₁, u, mod₁, h₂, -, hrun₁, hrun₂⟩ := exec_of_bind hrun
    obtain ⟨-, -, rfl⟩ := hrun₂.eq_of_ret rfl
    rw [← (supportScreens_same _ _ _ _ hrun₁).2]

/-- **A connection** closes its runtime once, if it does, and behind everything else. -/
theorem always_onTryConnectWifi (job : Int) :
    Always ClosesLast (onTryConnectWifi fuel job) (fun h' _ mod' => LeavesRuntime h' mod') [] mod := by
  have hselect {h : History} {mod : ModulePriv} (transport : FujiTransport) (addr : String)
      (hstart : Started h mod) :
      Always ClosesLast (selectCamera transport addr) (fun h' _ mod' => Started h' mod') h mod :=
    always_runtime (issues_modify _) hstart
  have hconnect {h : History} {mod : ModulePriv} (port : Int) (extraTimeout : ℕ)
      (clientName : List UInt8) (hstart : Started h mod) :
      Always ClosesLast (connectAndStart port extraTimeout fuel clientName)
        (fun h' _ mod' => LeavesRuntime h' mod') h mod := by
    refine always_bind (always_runtime issues_get hstart) fun _ fuji _ hstart => ?_
    refine always_bind (always_askMod trivial hstart) fun _ rc _ hstart => ?_
    exact always_ite (fun _ => always_cleanup hstart) fun _ => always_startSession hstart
  have hpoint {h : History} {mod : ModulePriv} (transport : FujiTransport) (clientName : List UInt8)
      (hstart : Started h mod) : Always ClosesLast (connectAccessPoint transport fuel clientName)
        (fun h' _ mod' => LeavesRuntime h' mod') h mod :=
    always_bind (hselect _ _ hstart) fun _ _ _ hstart => hconnect _ _ _ hstart
  refine always_modify_bind.mpr ?_
  have hstart : Started [] { mod with currentJob := job, r := some fujiPtpNew } := ⟨rfl, by simp⟩
  refine always_bind (always_askMod trivial hstart) fun _ clientName _ hstart => ?_
  refine always_bind (always_askMod trivial hstart) fun _ setupOption _ hstart => ?_
  refine always_ite (fun _ => always_return hstart) fun _ => ?_
  refine always_ite (fun _ => hpoint _ _ hstart) fun _ => ?_
  refine always_ite (fun _ => hpoint _ _ hstart) fun _ => ?_
  refine always_ite (fun _ => ?_) fun _ => always_cleanup hstart
  refine always_bind (always_askMod trivial hstart) fun _ r _ hstart => ?_
  refine always_ite (fun _ => always_cleanup hstart) fun _ => always_ite (fun _ => ?_) fun _ => ?_
  · refine always_bind (hselect _ _ hstart) fun _ _ _ hstart => ?_
    exact always_bind (always_askMod trivial hstart) fun _ _ _ hstart => hconnect _ _ _ hstart
  · exact always_ite (fun _ => always_return hstart) fun _ => always_startSession hstart

theorem cleanup_loose : Tidy modLens.loose cleanup some := by
  refine tidy_bind (plain_call rfl trivial) fun _ => tidy_bind (plain_modify fun _ => rfl) fun _ => ?_
  exact tidy_pure (by simp) (by simp)

theorem supportScreens_loose : Plain modLens.loose supportScreens := by
  have hcall {op : Op} (hop : op.isFatal = false) : Plain modLens.loose (askMod op) :=
    plain_call hop trivial
  have hgallery (fuji : PtpRuntime) : Plain modLens.loose (supportGallery fuji) :=
    tidy_bind (hcall rfl) fun _ => tidy_bind (hcall rfl) fun _ => hcall rfl
  refine tidy_bind (withRuntime_plain issues_get).loosen fun fuji => tidy_ite ?_ (tidy_ite ?_ ?_)
  · exact tidy_bind (hcall rfl) fun _ => hgallery fuji
  · exact hgallery fuji
  · refine tidy_ite (hcall rfl) (tidy_ite ?_ (plain_pure _))
    refine tidy_bind (hcall rfl) fun _ => tidy_bind (hcall rfl) fun _ => ?_
    exact tidy_bind (hcall rfl) fun _ => hcall rfl

theorem startSession_loose (clientName : List UInt8) :
    Tidy modLens.loose (startSession fuel clientName) some := by
  have hok : Tidy modLens.loose (pure .ok : ModM PakRc) some := tidy_pure (by simp) (by simp)
  refine tidy_bind (withRuntime_plain issues_get).loosen fun fuji => tidy_ite ?_ ?_
  · refine tidy_bind (withRuntime_plain fujitetherSetup_ofRuntime).loosen fun rc => ?_
    exact tidy_ite (handlePtperr_tidy _ _).loosen hok
  · refine tidy_bind (withRuntime_plain fujiSetup_ofRuntime).loosen fun rc => ?_
    exact tidy_ite cleanup_loose (tidy_bind supportScreens_loose fun _ => hok)

theorem onTryConnectWifi_loose (job : Int) :
    Tidy modLens.loose (onTryConnectWifi fuel job) some := by
  have hcall {op : Op} (hop : op.isFatal = false) : Plain modLens.loose (askMod op) :=
    plain_call hop trivial
  have hselect (transport : FujiTransport) (addr : String) :
      Plain modLens.loose (selectCamera transport addr) :=
    (withRuntime_plain (issues_modify _)).loosen
  have hconnect (port : Int) (extraTimeout : ℕ) (clientName : List UInt8) :
      Tidy modLens.loose (connectAndStart port extraTimeout fuel clientName) some := by
    refine tidy_bind (withRuntime_plain issues_get).loosen fun fuji => ?_
    exact tidy_bind (hcall rfl) fun rc => tidy_ite cleanup_loose (startSession_loose _)
  have hpoint (transport : FujiTransport) (clientName : List UInt8) :
      Tidy modLens.loose (connectAccessPoint transport fuel clientName) some :=
    tidy_bind (hselect _ _) fun _ => hconnect _ _ _
  have hcode {pak : PakRc} (hne : pak ≠ .io) (hne' : pak ≠ .disconnected) :
      Tidy modLens.loose (pure pak : ModM PakRc) some :=
    tidy_pure (by simp [hne]) (by simp [hne'])
  refine tidy_bind (plain_modify fun _ => rfl) fun _ => ?_
  refine tidy_bind (hcall rfl) fun clientName => tidy_bind (hcall rfl) fun setupOption => ?_
  refine tidy_ite (hcode (by simp) (by simp)) (tidy_ite (hpoint _ _) (tidy_ite (hpoint _ _) ?_))
  refine tidy_ite (tidy_bind (hcall rfl) fun r => tidy_ite cleanup_loose (tidy_ite ?_ ?_)) cleanup_loose
  · exact tidy_bind (hselect _ _) fun _ => tidy_bind (hcall rfl) fun _ => hconnect _ _ _
  · exact tidy_ite (hcode (by simp) (by simp)) (startSession_loose _)

end Wifi

/-! ### Calls that connect -/

/-- An event of the runtime. -/
def ofBase (e : Event Op Op.Ret) : Event LifeOp LifeOp.Ret := ⟨.base e.1, e.2⟩

theorem map_seenBase {h : LifeHistory} (hall : ∀ e ∈ h, ∃ op, e.1 = .base op) :
    h = (h.filterMap seenBase).map ofBase := by
  induction h with
  | nil => rfl
  | cons e h ih =>
    obtain ⟨⟨op, hop⟩, hrest⟩ := List.forall_mem_cons.mp hall
    obtain ⟨op', r⟩ := e
    obtain rfl : op' = .base op := hop
    exact congrArg (_ :: ·) (ih hrest)

section Connect

variable {α : Type} {priv priv' : LifePriv} {h : LifeHistory} {rc : LifeRc} {job : Int} {fuel : ℕ}
  {handle : Bool} {saved : Option (Vector UInt8 4)}

theorem reaches_onMod {m : ModM α} (hreach : Reaches (onMod m) priv h) :
    ∃ g, h = g.map ofBase ∧ Reaches m priv.toModulePriv g := by
  have hseen := reaches_embed (v := seenBase) (fun _ _ => rfl) nonempty_ret hreach
  exact ⟨_, map_seenBase (embed_all nonempty_ret _ _ hreach), hseen⟩

theorem exec_onMod {m : ModM α} {a : α} (hrun : Exec (onMod m) priv h a priv') :
    ∃ g mod, h = g.map ofBase ∧ Exec m priv.toModulePriv g a mod ∧
      priv' = { priv with toModulePriv := mod } := by
  obtain ⟨mod, hrun', rfl⟩ := exec_embed (v := seenBase) (fun _ _ => rfl) hrun
  exact ⟨_, mod, map_seenBase (embed_all nonempty_ret _ _ hrun.reaches), hrun', rfl⟩

theorem connectWifi_exec (hrun : Exec (connectWifi fuel handle job) priv h rc priv') :
    ∃ g pak mod, h = ⟨.ptpNew .ipUsb, ()⟩ :: g.map ofBase ∧ rc = .pak pak ∧
      Exec (onTryConnectWifi fuel job) priv.toModulePriv g pak mod ∧
      priv' = { priv with toModulePriv := mod, adapter := handle } := by
  obtain ⟨_, h₁, rfl, hrun₁⟩ := exec_call_bind.mp (exec_modify_bind.mp hrun)
  obtain ⟨h₂, pak, priv₁, h₃, rfl, hmod, hret⟩ := exec_of_bind hrun₁
  obtain ⟨rfl, rfl, rfl⟩ := hret.eq_of_ret rfl
  obtain ⟨g, mod, rfl, hconnect, rfl⟩ := exec_onMod hmod
  exact ⟨g, pak, mod, by rw [List.append_nil], rfl, hconnect, rfl⟩

theorem connectWifi_reaches (hreach : Reaches (connectWifi fuel handle job) priv h) :
    h = [] ∨ ∃ g, h = ⟨.ptpNew .ipUsb, ()⟩ :: g.map ofBase ∧
      Reaches (onTryConnectWifi fuel job) priv.toModulePriv g := by
  rcases reaches_call_bind.mp (reaches_modify_bind.mp hreach) with rfl | ⟨_, h₁, rfl, hreach₁⟩
  · exact .inl rfl
  · refine .inr ?_
    rcases reaches_of_bind hreach₁ with hmod | ⟨h₂, pak, priv₁, h₃, rfl, hmod, hret⟩
    · obtain ⟨g, rfl, hconnect⟩ := reaches_onMod hmod
      exact ⟨g, rfl, hconnect⟩
    · obtain rfl := reaches_of_ret rfl hret
      obtain ⟨g, mod, rfl, hconnect, -⟩ := exec_onMod hmod
      exact ⟨g, by rw [List.append_nil], hconnect.reaches⟩

/-- A connection over USB has a runtime from its first step on, and asks for nothing that would
close it. -/
theorem onTryConnectUsb_issues (connected : Rc) : Issues Op.OfRuntime (onTryConnectUsb connected job) := by
  refine issues_bind (issues_modify _) fun _ => issues_ite (issues_pure _) ?_
  refine issues_bind (withRuntime_issues fujiusbSetup_ofRuntime) fun rc => ?_
  exact issues_ite (issues_pure _) (issues_pure _)

theorem onTryConnectUsb_held {connected : Rc} {mod mod' : ModulePriv} {h : History} {rc : Rc}
    (hrun : Exec (onTryConnectUsb connected job) mod h rc mod') :
    mod'.r.isSome = true ∧ mod'.dev = mod.dev := by
  have hrun₀ := exec_modify_bind.mp hrun
  have hplain : Plain modLens (if connected ≠ .ok then pure connected else do
      let rc ← withRuntime fujiusbSetup
      if rc ≠ .ok then return rc else return .ok : ModM Rc) := by
    refine tidy_ite (plain_pure _) (tidy_bind (withRuntime_plain fujiusbSetup_ofRuntime) fun rc => ?_)
    exact tidy_ite (plain_pure _) (plain_pure _)
  have hends := hplain.ends _ _ _ _ hrun₀
  refine ⟨hends.runtime, hends.device.trans ?_⟩
  simp [modLens, ModulePriv.held]

theorem connectUsb_exec (hrun : Exec (connectUsb job) priv h rc priv') :
    ∃ connected g rc' mod, h = ⟨.ptpNew .usb, ()⟩ :: ⟨.connectFromLibusbHandle, connected⟩ :: g.map ofBase ∧
      rc = .ptp rc' ∧ Exec (onTryConnectUsb connected job) priv.toModulePriv g rc' mod ∧
      priv' = { priv with toModulePriv := mod } := by
  obtain ⟨_, h₁, rfl, hrun₁⟩ := exec_call_bind.mp hrun
  obtain ⟨connected, h₂, rfl, hrun₂⟩ := exec_call_bind.mp hrun₁
  obtain ⟨h₃, rc', priv₁, h₄, rfl, hmod, hret⟩ := exec_of_bind hrun₂
  obtain ⟨rfl, rfl, rfl⟩ := hret.eq_of_ret rfl
  obtain ⟨g, mod, rfl, hconnect, rfl⟩ := exec_onMod hmod
  exact ⟨connected, g, rc', mod, by rw [List.append_nil], rfl, hconnect, rfl⟩

/-- The operations of a connection over Bluetooth. -/
def LifeOp.OfBluetooth : LifeOp → Prop
  | .bt dev _ => dev = true
  | .base (.setWidget name _) => name = widgetSwitchWifi
  | _ => False

theorem onTryConnectBluetooth_issues :
    Issues LifeOp.OfBluetooth (onTryConnectBluetooth saved job) := by
  refine issues_bind (issues_call rfl) fun _ => issues_bind (issues_modify _) fun _ => ?_
  refine issues_bind (embed_issues (A := fun _ => True) (fun _ _ _ _ _ => trivial) nonempty_btRet
    fun _ _ => rfl) fun rc => issues_ite (issues_pure _) ?_
  exact issues_bind (issues_modify _) fun _ => issues_pure _

/-- Did a call take a Bluetooth device? -/
def LifeRc.connected : LifeRc → Bool
  | .bt rc => decide (rc = .ok)
  | _ => false

theorem onTryConnectBluetooth_held (hrun : Exec (onTryConnectBluetooth saved job) priv h rc priv') :
    rc.pakCode = none ∧
      priv'.held = { priv.held with device := priv.dev || rc.connected } := by
  obtain ⟨_, h₁, rfl, hrun₁⟩ := exec_call_bind.mp hrun
  obtain ⟨h₂, rc', priv₁, h₃, rfl, hbluetooth, hrest⟩ := exec_of_bind (exec_modify_bind.mp hrun₁)
  obtain ⟨bt, -, rfl⟩ := exec_embed (v := seenBluetooth) (fun _ _ => rfl) hbluetooth
  by_cases hrc : rc' ≠ .ok
  · rw [if_pos hrc] at hrest
    cases hrest
    refine ⟨rfl, ?_⟩
    simp [LifePriv.held, LifeRc.connected, hrc]
  · rw [if_neg hrc] at hrest
    cases hrest
    refine ⟨rfl, ?_⟩
    simp [LifePriv.held, LifeRc.connected]

end Connect

/-! ### The runtime -/

/-- Does an operation need the runtime? -/
def Op.usesRuntime : Op → Bool
  | .clientName | .setupOption | .fatalError _ | .btDeviceUpdate | .setScreenSupported _
  | .setWidget _ _ | .setStorageInfo _ _ | .addFileMetadata _ _ | .addFileContents _ _ _ _ _ _
  | .usleep _ => false
  | _ => true

def LifeOp.usesRuntime : LifeOp → Bool
  | .base op => op.usesRuntime
  | .lock (.addFileThumbnail _ _ _) => false
  | .lock _ => true
  | .connectFromLibusbHandle => true
  | .freeKnowledge => true
  | _ => false

def LifeOp.closes : LifeOp → Bool
  | .base .ptpClose => true
  | _ => false

/-- Follow whether there is a runtime that has not been closed; it fails where one is used that is
not there. -/
def trackStep (isOpen : Bool) (e : Event LifeOp LifeOp.Ret) : Option Bool :=
  match e.1 with
  | .ptpNew _ => some true
  | .base .ptpClose => if isOpen = true then some false else none
  | op => if op.usesRuntime = true ∧ isOpen = false then none else some isOpen

def track (isOpen : Bool) (h : LifeHistory) : Option Bool := h.foldlM trackStep isOpen

section Track

variable {α : Type} {priv priv' : LifePriv} {h h' : LifeHistory} {rc : LifeRc} {isOpen : Bool}
  {e : Event LifeOp LifeOp.Ret} {c : Callback}

theorem track_append : track isOpen (h ++ h') = (track isOpen h).bind fun b => track b h' :=
  List.foldlM_append

theorem trackStep_open (hclose : e.1 ≠ .base .ptpClose) : trackStep true e = some true := by
  obtain ⟨op, r⟩ := e
  cases op with
  | base op =>
    cases op with
    | ptpClose => exact absurd rfl hclose
    | _ => rfl
  | _ => simp [trackStep]

theorem trackStep_closed (hnew : ∀ connectionType, e.1 ≠ .ptpNew connectionType)
    (huse : e.1.usesRuntime = false) : trackStep false e = some false := by
  obtain ⟨op, r⟩ := e
  cases op with
  | ptpNew connectionType => exact absurd rfl (hnew _)
  | base op =>
    cases op with
    | ptpClose => cases huse
    | _ => simp_all [trackStep]
  | _ => simp_all [trackStep]

theorem track_open (hclose : ∀ e ∈ h, e.1 ≠ .base .ptpClose) : track true h = some true := by
  induction h with
  | nil => rfl
  | cons e h ih =>
    obtain ⟨he, hrest⟩ := List.forall_mem_cons.mp hclose
    rw [track, List.foldlM_cons, trackStep_open he]
    exact ih hrest

theorem track_closed (hnew : ∀ e ∈ h, ∀ connectionType, e.1 ≠ .ptpNew connectionType)
    (huse : ∀ e ∈ h, e.1.usesRuntime = false) : track false h = some false := by
  induction h with
  | nil => rfl
  | cons e h ih =>
    rw [track, List.foldlM_cons,
      trackStep_closed (hnew e List.mem_cons_self) (huse e List.mem_cons_self)]
    exact ih (fun e' he' => hnew e' (List.mem_cons_of_mem _ he'))
      fun e' he' => huse e' (List.mem_cons_of_mem _ he')

/-- Operations that use no runtime. -/
abbrev LifeOp.Outside (op : LifeOp) : Prop := op.usesRuntime = false

/-- Without a runtime, a tick looks after the device only. -/
theorem onIdleTick_outside {mod : ModulePriv} (hr : mod.r = none) :
    IssuesAt (fun op => op.usesRuntime = false) onIdleTick mod := by
  have hdevice : Issues (fun op => op.usesRuntime = false) updateDevice := by
    refine issues_bind issues_get fun mod => issues_ite ?_ (issues_pure _)
    refine issues_bind (issues_call rfl) fun connected => issues_ite ?_ (issues_pure _)
    exact issues_bind (issues_call rfl) fun _ => issues_pure _
  intro g hreach
  have hreach₀ := reaches_get_bind.mp hreach
  rw [hr] at hreach₀
  exact hdevice _ _ hreach₀

theorem get_bind_apply {Op σ : Type} {Ret : Op → Type} (f : σ → StateT σ (Prog Op Ret) α) (s : σ) :
    (get >>= f) s = f s s := rfl

/-- A program that looks for the runtime first. -/
theorem get_ite_ret {Op σ : Type} {Ret : Op → Type} {p : σ → Prop} [DecidablePred p]
    {f : σ → StateT σ (Prog Op Ret) α} {a : α} {s : σ} (hp : ¬ p s) :
    (get >>= fun s => if p s then f s else pure a : StateT σ (Prog Op Ret) α) s = .ret (a, s) := by
  rw [get_bind_apply, if_neg hp]
  rfl

/-- **Without a runtime**, a call that does not connect uses none. -/
theorem Callback.outside (hconnects : c.connects = false) (hr : priv.r = none) :
    IssuesAt LifeOp.Outside c.program priv := by
  have hdevice {m : LifeM LifeRc} (hm : Tidy deviceLens m LifeRc.pakCode) :
      IssuesAt LifeOp.Outside m priv := by
    refine (hm.issues.mono fun op hop => ?_).at priv
    cases op <;> first | rfl | exact hop.elim
  have hlocks {α : Type} {m : LockM α} {a : α}
      (hm : m priv.toModulePriv = .ret (a, priv.toModulePriv)) :
      IssuesAt LifeOp.Outside (onLocks m) priv :=
    IssuesAt.embed (A := fun _ => False) seenLocks_ofLock nonempty_lockRet (issuesAt_of_ret hm)
      fun _ => False.elim
  have hmod {α : Type} {m : ModM α} (hm : IssuesAt (fun op => op.usesRuntime = false) m priv.toModulePriv) :
      IssuesAt LifeOp.Outside (onMod m) priv :=
    IssuesAt.embed (v := seenBase) (fun _ _ => rfl) nonempty_ret hm fun _ hop => hop
  have hnone : ¬ priv.r.isSome = true := by simp [hr]
  cases c with
  | tryConnectUsb job => cases hconnects
  | tryConnectWifi fuel handle job => cases hconnects
  | tryConnectBluetooth saved job => cases hconnects
  | requestThumbnail file => exact (hlocks (get_ite_ret hnone)).map _
  | requestMetadata file => exact issuesAt_of_ret (get_ite_ret hnone)
  | requestContents fuel job file =>
    refine IssuesAt.map (IssuesAt.embed (A := fun _ => False) seenFiles_ofFile nonempty_fileRet
      ?_ fun _ => False.elim) _
    refine issuesAt_of_ret (a := PakRc.ok) (t := priv.toFilesPriv) ?_
    rw [onRequestFileContents, get_bind_apply]
    simp only [hr]
    rfl
  | requestLiveviewFrame fuel data handle => exact (hlocks (get_ite_ret hnone)).map _
  | idleTick => exact (hmod (onIdleTick_outside hr)).map _
  | disconnect =>
    have hdevice : Issues LifeOp.Outside (if priv.dev = true then do
        let _ ← askLife .deviceDisconnect
        return .pak .ok
      else pure (.pak .ok) : LifeM LifeRc) :=
      issues_ite (issues_bind (issues_call rfl) fun _ => issues_pure _) (issues_pure _)
    intro h hreach
    have hreach₀ := reaches_get_bind.mp hreach
    rw [if_neg hnone] at hreach₀
    exact hdevice _ _ hreach₀
  | switchScreen oldScreen newScreen =>
    exact (hmod (issuesAt_of_ret (get_ite_ret hnone))).map _
  | customCommand argv => exact hdevice (onCommand_tidy argv)
  | widgetUpdated name v => exact hdevice (onPropChanged_tidy name v)

theorem LifeOp.OfBluetooth.outside {op : LifeOp} (hop : op.OfBluetooth) : op.Outside := by
  cases op with
  | base op => cases op <;> first | rfl | exact hop.elim
  | bt dev op => rfl
  | _ => exact hop.elim

/-- The operations of the calls that leave the runtime alone: those that do not connect, and a
connection over Bluetooth. -/
def LifeOp.Calm (op : LifeOp) : Prop :=
  op.Steady ∨ op.Blind ∨ op.OfBluetooth

theorem LifeOp.Calm.ne_close {op : LifeOp} (hop : op.Calm) : op ≠ .base .ptpClose := by
  rintro rfl
  rcases hop with hsteady | hnull | hbluetooth
  · exact hsteady
  · exact hnull
  · exact hbluetooth

theorem LifeOp.Calm.ne_new {op : LifeOp} (hop : op.Calm) (connectionType : ConnectionType) :
    op ≠ .ptpNew connectionType := by
  rintro rfl
  rcases hop with hsteady | hnull | hbluetooth
  · exact hsteady
  · exact hnull
  · exact hbluetooth

theorem Callback.calm (hconnects : c.connects = false) (hreach : Reaches c.program priv h) :
    ∀ e ∈ h, e.1.Calm := by
  intro e he
  rcases (Callback.tidy_look hconnects).issues _ _ hreach e he with hsteady | hnull
  · exact .inl hsteady
  · exact .inr (.inl hnull)

theorem onTryConnectBluetooth_calm {saved : Option (Vector UInt8 4)} {job : Int}
    (hreach : Reaches (onTryConnectBluetooth saved job) priv h) : ∀ e ∈ h, e.1.Calm :=
  fun e he => .inr (.inr (onTryConnectBluetooth_issues _ _ hreach e he))

/-- A call that neither makes a runtime nor closes it. -/
theorem track_calm (hcalm : ∀ e ∈ h, e.1.Calm)
    (houtside : priv.r = none → ∀ e ∈ h, e.1.Outside) :
    track priv.r.isSome h = some priv.r.isSome := by
  cases hr : priv.r with
  | none => exact track_closed (fun e he => (hcalm e he).ne_new) (houtside hr)
  | some r => exact track_open fun e he => (hcalm e he).ne_close

theorem ofBase_ne_close {g : History} (hg : ∀ e ∈ g, e.1 ≠ .ptpClose) :
    ∀ e ∈ g.map ofBase, e.1 ≠ .base .ptpClose := by
  intro e he heq
  obtain ⟨e', he', rfl⟩ := List.mem_map.mp he
  exact hg e' he' (LifeOp.base.inj heq)

/-- A connection over WiFi, behind `fuji_ptp_new`. -/
theorem track_leavesRuntime {g : History} {mod : ModulePriv} (hg : LeavesRuntime g mod) :
    track true (g.map ofBase) = some mod.r.isSome := by
  rw [LeavesRuntime] at hg
  cases hr : mod.r with
  | some r =>
    rw [hr, if_pos (by simp)] at hg
    exact track_open (ofBase_ne_close hg)
  | none =>
    rw [hr, if_neg (by simp)] at hg
    obtain ⟨g₁, rfl, hg₁⟩ := hg
    rw [List.map_append, track_append,
      track_open (ofBase_ne_close fun e he => (hg₁ e he).ne_close)]
    rfl

theorem track_closesLast {g : History} (hg : ClosesLast g) :
    (track true (g.map ofBase)).isSome = true := by
  rcases List.eq_nil_or_concat' g with rfl | ⟨g₁, e, rfl⟩
  · rfl
  · rw [ClosesLast, List.dropLast_concat] at hg
    rw [List.map_append, track_append, track_open (ofBase_ne_close hg)]
    by_cases he : e.1 = .ptpClose
    · obtain ⟨op, r⟩ := e
      obtain rfl : op = .ptpClose := he
      rfl
    · change (track true [ofBase e]).isSome = true
      rw [track_open (List.forall_mem_singleton.mpr fun heq => he (LifeOp.base.inj heq))]
      rfl

theorem connectUsb_reaches {job : Int} (hreach : Reaches (connectUsb job) priv h) :
    h = [] ∨ ∃ h', h = ⟨.ptpNew .usb, ()⟩ :: h' ∧ ∀ e ∈ h', e.1 ≠ .base .ptpClose := by
  rcases reaches_call_bind.mp hreach with rfl | ⟨_, h', rfl, hreach'⟩
  · exact .inl rfl
  · have hrest : Issues (· ≠ .base .ptpClose) (do
        let connected : Rc ← askLife .connectFromLibusbHandle
        let rc ← onMod (onTryConnectUsb connected job)
        return .ptp rc : LifeM LifeRc) := by
      refine issues_bind (issues_call (by simp)) fun connected => ?_
      refine issues_bind (embed_issues (onTryConnectUsb_issues connected) nonempty_ret ?_) fun _ =>
        issues_pure _
      exact fun op hop heq => hop.ne_close (LifeOp.base.inj heq)
    exact .inr ⟨h', rfl, hrest _ _ hreach'⟩

/-- **A call** uses the runtime only while there is one, -/
theorem Callback.track_reaches (hreach : Reaches c.program priv h) :
    (track priv.r.isSome h).isSome = true := by
  have hcalm (hconnects : c.connects = false) : (track priv.r.isSome h).isSome = true := by
    refine Option.isSome_iff_exists.mpr ⟨_, track_calm (Callback.calm hconnects hreach) fun hr => ?_⟩
    exact Callback.outside hconnects hr _ hreach
  cases c with
  | tryConnectUsb job =>
    rcases connectUsb_reaches hreach with rfl | ⟨h', rfl, hopen⟩
    · rfl
    · exact Option.isSome_iff_exists.mpr ⟨_, track_open hopen⟩
  | tryConnectWifi fuel handle job =>
    rcases connectWifi_reaches hreach with rfl | ⟨g, rfl, hconnect⟩
    · rfl
    · exact track_closesLast ((always_onTryConnectWifi job).reaches g hconnect)
  | tryConnectBluetooth saved job =>
    have hall := onTryConnectBluetooth_issues _ _ hreach
    exact Option.isSome_iff_exists.mpr ⟨_, track_calm (onTryConnectBluetooth_calm hreach)
      fun _ e he => (hall e he).outside⟩
  | _ => exact hcalm rfl

/-- and leaves one just if it is still open. -/
theorem Callback.track_exec (hrun : Exec c.program priv h rc priv') :
    track priv.r.isSome h = some priv'.r.isSome := by
  have hcalm (hconnects : c.connects = false) : track priv.r.isSome h = some priv'.r.isSome := by
    have hends := (Callback.tidy_look hconnects).ends _ _ _ _ hrun
    rw [show priv'.r.isSome = priv.r.isSome from hends.runtime]
    refine track_calm (Callback.calm hconnects hrun.reaches) fun hr => ?_
    exact Callback.outside hconnects hr _ hrun.reaches
  cases c with
  | tryConnectUsb job =>
    obtain ⟨connected, g, rc', mod, rfl, -, hconnect, rfl⟩ := connectUsb_exec hrun
    change track true (⟨.connectFromLibusbHandle, connected⟩ :: g.map ofBase) = some mod.r.isSome
    rw [(onTryConnectUsb_held hconnect).1]
    refine track_open (List.forall_mem_cons.mpr ⟨by simp, ofBase_ne_close fun e he => ?_⟩)
    exact (onTryConnectUsb_issues connected _ _ hconnect.reaches e he).ne_close
  | tryConnectWifi fuel handle job =>
    obtain ⟨g, pak, mod, rfl, -, hconnect, rfl⟩ := connectWifi_exec hrun
    exact track_leavesRuntime ((always_onTryConnectWifi job).exec _ _ _ hconnect)
  | tryConnectBluetooth saved job =>
    obtain ⟨-, hheld⟩ := onTryConnectBluetooth_held hrun
    have hruntime : priv'.r.isSome = priv.r.isSome := congrArg Holdings.runtime hheld
    rw [hruntime]
    have hall := onTryConnectBluetooth_issues _ _ hrun.reaches
    exact track_calm (onTryConnectBluetooth_calm hrun.reaches) fun _ e he => (hall e he).outside
  | _ => exact hcalm rfl

end Track

/-! ### The end -/

/-- From `s`, a program can do nothing but `t`, and is left in `s`. -/
structure Does {α : Type} (m : LifeM α) (s : LifePriv) (t : LifeHistory) : Prop where
  reaches : ∀ h, Reaches m s h → h <+: t
  exec : ∀ h a s', Exec m s h a s' → h = t

section Does

variable {α : Type} {m m' : LifeM α} {s : LifePriv} {t t' : LifeHistory}

theorem does_pure (a : α) : Does (pure a) s [] := by
  constructor
  · rintro _ ⟨⟩
    exact List.nil_prefix
  · rintro _ _ _ ⟨⟩
    rfl

theorem does_call_bind {op : LifeOp} {f : op.Ret → LifeM α} {r : op.Ret} (hr : ∀ r', r' = r)
    (hf : Does (f r) s t) : Does (askLife op >>= f) s (⟨op, r⟩ :: t) := by
  constructor
  · intro h hreach
    rcases reaches_call_bind.mp hreach with rfl | ⟨r', h', rfl, hreach'⟩
    · exact List.nil_prefix
    · obtain rfl := hr r'
      exact List.cons_prefix_cons.mpr ⟨rfl, hf.reaches _ hreach'⟩
  · intro h a s' hrun
    obtain ⟨r', h', rfl, hrun'⟩ := exec_call_bind.mp hrun
    obtain rfl := hr r'
    rw [hf.exec _ _ _ hrun']

theorem does_call {op : LifeOp} {r : op.Ret} (hr : ∀ r', r' = r) : Does (askLife op) s [⟨op, r⟩] :=
  bind_pure (askLife op) ▸ does_call_bind hr (does_pure r)

theorem does_ite {c : Prop} [Decidable c] (hm : Does m s t) (hm' : Does m' s t') :
    Does (if c then m else m') s (if c then t else t') := by
  by_cases hc : c
  · rwa [if_pos hc, if_pos hc]
  · rwa [if_neg hc, if_neg hc]

/-- What `on_free` does. -/
def LifePriv.freed (priv : LifePriv) : LifeHistory :=
  let adapter : LifeHistory :=
    if priv.adapter = true then [⟨.unrefAdapter, ()⟩, ⟨.freePriv, ()⟩] else [⟨.freePriv, ()⟩]
  let device := if priv.dev = true then ⟨.unrefDevice, ()⟩ :: adapter else adapter
  if priv.r.isSome = true then ⟨.freeKnowledge, ()⟩ :: ⟨.base .ptpClose, ()⟩ :: device else device

theorem onFree_does (priv : LifePriv) : Does onFree priv priv.freed := by
  have hlast : Does (askLife .freePriv) priv [⟨.freePriv, ()⟩] := by
    refine does_call ?_
    exact fun _ => rfl
  have hadapter : Does (if priv.adapter = true then do
      let _ ← askLife .unrefAdapter
      askLife .freePriv
    else askLife .freePriv) priv _ :=
    does_ite (does_call_bind (r := ()) (fun _ => rfl) hlast) hlast
  have hdevice : Does (if priv.dev = true then do
      let _ ← askLife .unrefDevice
      if priv.adapter = true then do
        let _ ← askLife .unrefAdapter
        askLife .freePriv
      else askLife .freePriv
    else if priv.adapter = true then do
      let _ ← askLife .unrefAdapter
      askLife .freePriv
    else askLife .freePriv) priv _ :=
    does_ite (does_call_bind (r := ()) (fun _ => rfl) hadapter) hadapter
  have hclose {m : LifeM Unit} {t : LifeHistory} (hm : Does m priv t) :
      Does (do let _ ← askLife .freeKnowledge; let _ ← askLife (.base .ptpClose); m) priv
        (⟨.freeKnowledge, ()⟩ :: ⟨.base .ptpClose, ()⟩ :: t) := by
    refine does_call_bind ?_ (does_call_bind ?_ hm)
    all_goals exact fun _ => rfl
  have hall := does_ite (c := priv.r.isSome = true) (hclose hdevice) hdevice
  exact ⟨fun h hreach => hall.reaches h (reaches_get_bind.mp hreach),
    fun h a s' hrun => hall.exec h a s' (exec_get_bind.mp hrun)⟩

end Does

/-! ### A run -/

/-- A camera that accepts everything. -/
def obliging : (op : LifeOp) → op.Ret
  | .base op => accessPoint op
  | .file op => reading 0 op
  | .lock op => framing op
  | .bt _ op => answering [] op
  | .connectFromLibusbHandle => Rc.ok
  | .addFileMetadata _ _ => (0 : Int)
  | .setTickInterval _ | .ptpNew _ | .freeKnowledge | .freePriv | .unrefDevice | .unrefAdapter
  | .deviceDisconnect | .nullDereference => ()

/-- The calls, one after the other, with the answers of `o`. -/
def simulate (o : (op : LifeOp) → op.Ret) :
    List Callback → List Call → LifeHistory → LifePriv → Option (List Call × LifeHistory × LifePriv)
  | [], calls, h, priv => some (calls, h, priv)
  | c :: cs, calls, h, priv =>
    ((c.program priv).trace o).bind fun r =>
      simulate o cs (calls ++ [⟨c, h, priv, r.1, r.2.1⟩]) (h ++ r.1) r.2.2

theorem simulate_run {o : (op : LifeOp) → op.Ret} {cs : List Callback} {calls : List Call}
    {h : LifeHistory} {priv : LifePriv} {out : List Call × LifeHistory × LifePriv}
    (hrun : LifeRun calls h priv) (hout : simulate o cs calls h priv = some out) :
    LifeRun out.1 out.2.1 out.2.2 := by
  induction cs generalizing calls h priv with
  | nil =>
    obtain rfl := Option.some.inj hout
    exact hrun
  | cons c cs ih =>
    obtain ⟨r, hr, hrest⟩ := Option.bind_eq_some_iff.mp hout
    exact ih (.call hrun (Prog.runs_of_trace hr).1) hrest

/-- `init`. -/
def startHistory : LifeHistory :=
  [⟨.setTickInterval 1000000, ()⟩, ⟨.base (.setScreenSupported .dashboard), ()⟩]

theorem lifeRun_start : LifeRun [] startHistory callocPriv := by
  have htrace : (init callocPriv).trace obliging = some (startHistory, ((), callocPriv)) := rfl
  exact .init (Prog.runs_of_trace htrace).1

/-! ### Use of the runtime -/

section Runs

variable {calls : List Call} {h : LifeHistory} {priv : LifePriv}

theorem init_issues : Issues (fun op => op = .setTickInterval 1000000 ∨
    op = .base (.setScreenSupported .dashboard)) init :=
  issues_bind (issues_call (.inl rfl)) fun _ => issues_call (.inr rfl)

theorem init_exec (hrun : Exec init callocPriv h () priv) : priv = callocPriv := by
  obtain ⟨_, h₁, rfl, hrun₁⟩ := exec_call_bind.mp hrun
  cases hrun₁ with
  | call r hret =>
    cases hret
    rfl

theorem track_init (hreach : Reaches init callocPriv h) : track false h = some false := by
  refine track_closed (fun e he connectionType heq => ?_) fun e he => ?_
  · rcases heq ▸ init_issues _ _ hreach e he with hop | hop <;> cases hop
  · rcases init_issues _ _ hreach e he with hop | hop <;> rw [hop] <;> rfl

/-- There is a runtime just while it is open. -/
theorem lifeRun_track (hrun : LifeRun calls h priv) : track false h = some priv.r.isSome := by
  induction hrun with
  | init hrun =>
    rw [track_init hrun.reaches, init_exec hrun]
    rfl
  | call _ hcall ih => rw [track_append, ih, Option.bind_some, Callback.track_exec hcall]

theorem track_before {isOpen : Bool} {t : LifeHistory} (ht : (track isOpen t).isSome = true)
    (hbefore : h <+: t) : (track isOpen h).isSome = true := by
  obtain ⟨u, rfl⟩ := hbefore
  rw [track_append] at ht
  exact Option.isSome_of_isSome_bind ht

theorem track_freed (priv : LifePriv) : (track priv.r.isSome priv.freed).isSome = true := by
  rw [LifePriv.freed]
  cases priv.r.isSome <;> cases priv.dev <;> cases priv.adapter <;> rfl

/-- **The runtime** is used only between `fuji_ptp_new` and its `ptp_close`, and closed once at
most, however far the module has come, in any order of its calls. -/
theorem lifeReaches_tracked (hreach : LifeReaches h) : (track false h).isSome = true := by
  cases hreach with
  | init hreach =>
    rw [track_init hreach]
    rfl
  | call hrun hreach =>
    rw [track_append, lifeRun_track hrun, Option.bind_some]
    exact Callback.track_reaches hreach
  | free hrun hreach =>
    rw [track_append, lifeRun_track hrun, Option.bind_some]
    exact track_before (track_freed _) ((onFree_does _).reaches _ hreach)

/-- A connection over USB, another over WiFi, and the end. -/
theorem lifeReaches_tracked_connections : ∃ h, LifeReaches h ∧ (∃ e ∈ h, e.1.closes = true) ∧
    (track false h).isSome = true := by
  have hsimulate : ((simulate obliging [.tryConnectUsb 1, .tryConnectWifi 1 true 2] [] startHistory
      callocPriv).bind fun r => (onFree r.2.2).trace obliging).map
      (fun r => r.1.any fun e => e.1.closes) = some true := by
    decide +kernel
  obtain ⟨⟨t, u, priv'⟩, hfree, hcloses⟩ := Option.map_eq_some_iff.mp hsimulate
  obtain ⟨⟨calls, h, priv⟩, hout, hfree⟩ := Option.bind_eq_some_iff.mp hfree
  have hreach : LifeReaches (h ++ t) :=
    .free (simulate_run lifeRun_start hout) (Prog.runs_of_trace hfree).1.reaches
  obtain ⟨e, he, hclose⟩ := List.any_eq_true.mp hcloses
  exact ⟨_, hreach, ⟨e, List.mem_append_right h he, hclose⟩, lifeReaches_tracked hreach⟩

end Runs

/-! ### Conservation -/

/-- What has to be given back. -/
inductive Resource
  | runtime
  /-- the part of a runtime that is libfuji's -/
  | knowledge
  | device | adapter
  deriving DecidableEq, Repr

/-- What an event makes; what it gives back counts negative. -/
def lifeWeight : Event LifeOp LifeOp.Ret → Resource → ℤ
  | ⟨.ptpNew _, _⟩, .runtime => 1
  | ⟨.ptpNew _, _⟩, .knowledge => 1
  | ⟨.base .ptpClose, _⟩, .runtime => -1
  | ⟨.freeKnowledge, _⟩, .knowledge => -1
  | ⟨.unrefDevice, _⟩, .device => -1
  | ⟨.unrefAdapter, _⟩, .adapter => -1
  | _, _ => 0

/-- One, if it is there. -/
def one (b : Bool) : ℤ := if b = true then 1 else 0

@[simp] theorem one_true : one true = 1 := rfl

@[simp] theorem one_false : one false = 0 := rfl

def Holdings.count (held : Holdings) : Resource → ℤ
  | .runtime => one held.runtime
  | .knowledge => one held.runtime
  | .device => one held.device
  | .adapter => one held.adapter

/-- Does a call put a new runtime in the place of another? -/
def Call.replaces (c : Call) : Bool :=
  match c.callback with
  | .tryConnectUsb _ | .tryConnectWifi _ _ _ => c.before.r.isSome
  | _ => false

/-- What the frontend has handed to the module. -/
def Call.handed (c : Call) : Resource → ℤ
  | .device =>
    match c.callback with
    | .tryConnectBluetooth _ _ => one c.rc.connected
    | _ => 0
  | .adapter =>
    match c.callback with
    | .tryConnectWifi _ handle _ => one handle
    | _ => 0
  | _ => 0

/-- What a call loses: a runtime that is replaced; its part that is libfuji's, also where it is
closed; a device that is replaced, or dropped with `PAK_ERR_IO`; an adapter that is replaced. -/
def Call.lost (c : Call) : Resource → ℤ
  | .runtime => one c.replaces
  | .knowledge => one c.replaces + c.history.countP (fun e => e.1.closes)
  | .device =>
    match c.callback with
    | .tryConnectBluetooth _ _ => one (c.before.dev && c.rc.connected)
    | _ => one (c.before.dev && decide (c.rc.pakCode = some .io))
  | .adapter =>
    match c.callback with
    | .tryConnectWifi _ _ _ => one c.before.adapter
    | _ => 0

section Conserves

variable {calls : List Call} {h h' : LifeHistory} {priv priv' : LifePriv} {c : Callback} {rc : LifeRc}
  {e : Event LifeOp LifeOp.Ret}

theorem lifeWeight_calm (he : e.1.Calm) : lifeWeight e = 0 := by
  obtain ⟨op, r⟩ := e
  rcases he with hsteady | hnull | hbluetooth
  · cases op with
    | base op =>
      cases op with
      | ptpClose => exact hsteady.elim
      | _ => funext x; cases x <;> rfl
    | ptpNew _ => exact hsteady.elim
    | freeKnowledge => exact hsteady.elim
    | unrefDevice => exact hsteady.elim
    | unrefAdapter => exact hsteady.elim
    | _ => funext x; cases x <;> rfl
  · cases op with
    | bt dev op => funext x; cases x <;> rfl
    | nullDereference => funext x; cases x <;> rfl
    | _ => exact hnull.elim
  · cases op with
    | base op =>
      cases op with
      | ptpClose => exact hbluetooth.elim
      | _ => funext x; cases x <;> rfl
    | bt dev op => funext x; cases x <;> rfl
    | _ => exact hbluetooth.elim

theorem balance_calm (hcalm : ∀ e ∈ h, e.1.Calm) : balance lifeWeight h = 0 :=
  balance_of_zero fun e he => lifeWeight_calm (hcalm e he)

theorem countP_closes (hopen : ∀ e ∈ h, e.1 ≠ .base .ptpClose) :
    h.countP (fun e => e.1.closes) = 0 := by
  refine List.countP_eq_zero.mpr fun e he hcloses => hopen e he ?_
  obtain ⟨op, r⟩ := e
  cases op with
  | base op =>
    cases op with
    | ptpClose => rfl
    | _ => cases hcloses
  | _ => cases hcloses

theorem one_and_add_not (b : Bool) (p : Prop) [Decidable p] :
    one (b && decide ¬ p) + one (b && decide p) = one b := by
  by_cases hp : p <;> cases b <;> simp [one, hp]

/-- What a call does: what it makes and is handed is added to what is held, up to what it loses. -/
def Call.Conserves (c : Call) (priv' : LifePriv) : Prop :=
  balance lifeWeight c.history + c.handed + c.before.held.count = priv'.held.count + c.lost

theorem Callback.conserves_calm (hconnects : c.connects = false)
    (hrun : Exec c.program priv h' rc priv') : Call.Conserves ⟨c, h, priv, h', rc⟩ priv' := by
  have hends := (Callback.tidy_look hconnects).ends _ _ _ _ hrun
  have hcalm := Callback.calm hconnects hrun.reaches
  have hcount := countP_closes fun e he => (hcalm e he).ne_close
  have hhanded : Call.handed ⟨c, h, priv, h', rc⟩ = 0 := by
    funext x
    cases c with
    | tryConnectUsb job => cases hconnects
    | tryConnectWifi fuel handle job => cases hconnects
    | tryConnectBluetooth saved job => cases hconnects
    | _ => cases x <;> rfl
  have hlost (x : Resource) : Call.lost ⟨c, h, priv, h', rc⟩ x =
      if x = .device then one (priv.dev && decide (rc.pakCode = some .io)) else 0 := by
    cases c with
    | tryConnectUsb job => cases hconnects
    | tryConnectWifi fuel handle job => cases hconnects
    | tryConnectBluetooth saved job => cases hconnects
    | _ => cases x <;> simp [Call.lost, Call.replaces, one, hcount]
  rw [Call.Conserves, balance_calm hcalm, hhanded, zero_add, zero_add]
  funext x
  rw [Pi.add_apply, hlost]
  cases x with
  | runtime => simp [Holdings.count, show priv'.held.runtime = priv.held.runtime from hends.runtime]
  | knowledge => simp [Holdings.count, show priv'.held.runtime = priv.held.runtime from hends.runtime]
  | device =>
    have hdevice : priv'.held.device = (priv.dev && decide (rc.pakCode ≠ some .io)) := hends.device
    rw [if_pos rfl]
    change one priv.dev = one priv'.held.device + _
    rw [hdevice]
    exact (one_and_add_not _ _).symm
  | adapter => simp [Holdings.count, show priv'.held.adapter = priv.held.adapter from hends.adapter]

theorem lifeWeight_new {connectionType : ConnectionType} (x : Resource) :
    lifeWeight ⟨.ptpNew connectionType, ()⟩ x = if x = .runtime ∨ x = .knowledge then 1 else 0 := by
  cases x <;> rfl

theorem balance_ofBase {g : History} (hg : ∀ e ∈ g, e.1 ≠ .ptpClose) :
    balance lifeWeight (g.map ofBase) = 0 := by
  refine balance_of_zero fun e he => ?_
  obtain ⟨⟨op, r⟩, he', rfl⟩ := List.mem_map.mp he
  have hop : op ≠ .ptpClose := hg _ he'
  funext x
  cases op with
  | ptpClose => exact absurd rfl hop
  | _ => cases x <;> rfl

theorem connectUsb_conserves {job : Int} (hrun : Exec (connectUsb job) priv h' rc priv') :
    Call.Conserves ⟨.tryConnectUsb job, h, priv, h', rc⟩ priv' := by
  obtain ⟨connected, g, rc', mod, rfl, rfl, hconnect, rfl⟩ := connectUsb_exec hrun
  have hopen (e : Event Op Op.Ret) (he : e ∈ g) : e.1 ≠ .ptpClose :=
    (onTryConnectUsb_issues connected _ _ hconnect.reaches e he).ne_close
  obtain ⟨hr, hdev⟩ := onTryConnectUsb_held hconnect
  have hcount : List.countP (fun e => e.1.closes) (⟨.ptpNew .usb, ()⟩ ::
      ⟨.connectFromLibusbHandle, connected⟩ :: g.map ofBase) = 0 :=
    countP_closes (List.forall_mem_cons.mpr ⟨by simp, List.forall_mem_cons.mpr
      ⟨by simp, ofBase_ne_close hopen⟩⟩)
  funext x
  simp only [Pi.add_apply, balance_cons, balance_ofBase hopen, lifeWeight_new]
  cases x <;> simp [lifeWeight, Call.handed, Call.lost, Call.replaces, Holdings.count, LifePriv.held,
    LifeRc.pakCode, hcount, hr, hdev]

/-- A connection over WiFi closes its runtime, or leaves it. -/
theorem leavesRuntime_counts {g : History} {mod : ModulePriv} (hg : LeavesRuntime g mod) :
    (∀ x, balance lifeWeight (g.map ofBase) x =
      if x = .runtime then one mod.r.isSome - 1 else 0) ∧
    ((g.map ofBase).countP (fun e => e.1.closes) : ℤ) = 1 - one mod.r.isSome := by
  rw [LeavesRuntime] at hg
  cases hr : mod.r.isSome with
  | true =>
    rw [hr, if_pos rfl] at hg
    rw [countP_closes (ofBase_ne_close hg), balance_ofBase hg]
    exact ⟨fun x => by simp, by simp⟩
  | false =>
    rw [hr, if_neg (by simp)] at hg
    obtain ⟨g₁, rfl, hg₁⟩ := hg
    have hopen (e : Event Op Op.Ret) (he : e ∈ g₁) : e.1 ≠ .ptpClose := (hg₁ e he).ne_close
    rw [List.map_append, List.countP_append, countP_closes (ofBase_ne_close hopen), balance_append,
      balance_ofBase hopen]
    refine ⟨fun x => ?_, by simp [ofBase, LifeOp.closes]⟩
    cases x <;> simp [ofBase, lifeWeight]

theorem connectWifi_conserves {fuel : ℕ} {handle : Bool} {job : Int}
    (hrun : Exec (connectWifi fuel handle job) priv h' rc priv') :
    Call.Conserves ⟨.tryConnectWifi fuel handle job, h, priv, h', rc⟩ priv' := by
  obtain ⟨g, pak, mod, rfl, rfl, hconnect, rfl⟩ := connectWifi_exec hrun
  have hleaves : LeavesRuntime g mod := (always_onTryConnectWifi job).exec _ _ _ hconnect
  obtain ⟨hbalance, hcloses⟩ := leavesRuntime_counts hleaves
  have hdevice : mod.dev = (priv.dev && decide (some pak ≠ some .io)) :=
    ((onTryConnectWifi_loose job).ends _ _ _ _ hconnect).device
  have hcount : ((⟨.ptpNew .ipUsb, ()⟩ :: g.map ofBase : LifeHistory).countP (fun e => e.1.closes) : ℤ) =
      1 - one mod.r.isSome := by
    rw [List.countP_cons_of_neg (by simp [LifeOp.closes])]
    exact hcloses
  have hdropped := one_and_add_not priv.dev (some pak = some .io)
  funext x
  simp only [Pi.add_apply, balance_cons, hbalance, lifeWeight_new]
  cases x with
  | runtime => simp [Call.handed, Call.lost, Call.replaces, Holdings.count, LifePriv.held]
  | knowledge =>
    simp only [Call.handed, Call.lost, Call.replaces, Holdings.count, LifePriv.held, hcount]
    simp only [reduceCtorEq, or_true, if_true, if_false]
    ring
  | device =>
    simp only [Call.handed, Call.lost, Holdings.count, LifePriv.held, LifeRc.pakCode, hdevice]
    simpa using hdropped.symm
  | adapter => simp [Call.handed, Call.lost, Holdings.count, LifePriv.held]

theorem one_or_add_and (b b' : Bool) : one (b || b') + one (b && b') = one b + one b' := by
  cases b <;> cases b' <;> rfl

theorem onTryConnectBluetooth_conserves {saved : Option (Vector UInt8 4)} {job : Int}
    (hrun : Exec (onTryConnectBluetooth saved job) priv h' rc priv') :
    Call.Conserves ⟨.tryConnectBluetooth saved job, h, priv, h', rc⟩ priv' := by
  obtain ⟨-, hheld⟩ := onTryConnectBluetooth_held hrun
  have hcalm := onTryConnectBluetooth_calm hrun.reaches
  have hcount := countP_closes fun e he => (hcalm e he).ne_close
  have hdevice := one_or_add_and priv.dev rc.connected
  rw [Call.Conserves, balance_calm hcalm, hheld]
  funext x
  simp only [Pi.add_apply, zero_add]
  cases x with
  | device =>
    simp only [Call.handed, Call.lost, Holdings.count, LifePriv.held]
    rw [hdevice, add_comm]
  | _ => simp [Call.handed, Call.lost, Call.replaces, Holdings.count, LifePriv.held, hcount]

/-- **A call** conserves what has to be given back. -/
theorem Callback.conserves (hrun : Exec c.program priv h' rc priv') :
    Call.Conserves ⟨c, h, priv, h', rc⟩ priv' := by
  cases c with
  | tryConnectUsb job => exact connectUsb_conserves hrun
  | tryConnectWifi fuel handle job => exact connectWifi_conserves hrun
  | tryConnectBluetooth saved job => exact onTryConnectBluetooth_conserves hrun
  | _ => exact Callback.conserves_calm rfl hrun

theorem balance_freed (priv : LifePriv) : balance lifeWeight priv.freed + priv.held.count = 0 := by
  funext x
  rw [LifePriv.freed]
  simp only [LifePriv.held]
  cases priv.r.isSome <;> cases priv.dev <;> cases priv.adapter <;> cases x <;>
    simp [Holdings.count, lifeWeight]

/-- **What has been made or handed to the module** is held, has been given back, or is lost in a call
that drops it, after any calls in any order; and `on_free` gives back all that is held. -/
theorem lifeRun_conserves (hrun : LifeRun calls h priv) :
    balance lifeWeight h + (calls.map Call.handed).sum = priv.held.count + (calls.map Call.lost).sum ∧
    ∀ t priv', Exec onFree priv t () priv' →
      balance lifeWeight (h ++ t) + (calls.map Call.handed).sum = (calls.map Call.lost).sum := by
  have hall : balance lifeWeight h + (calls.map Call.handed).sum =
      priv.held.count + (calls.map Call.lost).sum := by
    induction hrun with
    | init hrun =>
      have hzero : balance lifeWeight _ = 0 := balance_of_zero fun e he => by
        refine lifeWeight_calm (.inl ?_)
        rcases init_issues _ _ hrun.reaches e he with hop | hop <;> rw [hop] <;> trivial
      rw [hzero, init_exec hrun]
      funext x
      cases x <;> rfl
    | @call calls h h' priv priv' c rc _ hcall ih =>
      have hstep : Call.Conserves ⟨c, h, priv, h', rc⟩ priv' := Callback.conserves hcall
      rw [Call.Conserves] at hstep
      rw [balance_append, List.map_append, List.map_append, List.sum_append, List.sum_append,
        List.map_singleton, List.map_singleton, List.sum_singleton, List.sum_singleton]
      linear_combination ih + hstep
  refine ⟨hall, fun t priv' hfree => ?_⟩
  rw [(onFree_does priv).exec _ _ _ hfree, balance_append]
  linear_combination hall + balance_freed priv

/-- A connection over WiFi replaces the runtime of one over USB. -/
theorem lifeRun_conserves_connections : ∃ calls h priv, LifeRun calls h priv ∧
    (calls.map Call.lost).sum .runtime = 1 ∧ balance lifeWeight h .runtime = 2 := by
  have hsimulate : (simulate obliging [.tryConnectUsb 1, .tryConnectWifi 1 true 2] [] startHistory
      callocPriv).map (fun r => (r.2.2.held.runtime, (r.1.map Call.handed).sum .runtime,
        (r.1.map Call.lost).sum .runtime)) = some (true, 0, 1) := by
    decide +kernel
  obtain ⟨⟨calls, h, priv⟩, hout, heq⟩ := Option.map_eq_some_iff.mp hsimulate
  have hrun : LifeRun calls h priv := simulate_run lifeRun_start hout
  obtain ⟨hruntime, hrest⟩ := Prod.mk.inj heq
  obtain ⟨hhanded, hlost⟩ := Prod.mk.inj hrest
  have hconserves := congrFun (lifeRun_conserves hrun).1 .runtime
  simp only [Pi.add_apply, hhanded, hlost, Holdings.count, hruntime, one_true] at hconserves
  exact ⟨calls, h, priv, hrun, hlost, by simpa using hconserves⟩

end Conserves

/-! ### Fatal errors -/

/-- Does a call end the session? -/
def Call.endsSession (c : Call) : Prop :=
  c.rc.pakCode = some .io ∧ c.before.dev = false ∨ c.rc.pakCode = some .disconnected

instance (c : Call) : Decidable c.endsSession := inferInstanceAs (Decidable (_ ∨ _))

/-- The fatal errors that the frontend is told of. -/
def fatals (h : LifeHistory) : ℕ := h.countP fun e => e.1.isFatal

section Fatal

variable {calls : List Call} {h h' : LifeHistory} {priv priv' : LifePriv} {c : Callback} {rc : LifeRc}

theorem connectWifi_loose (fuel : ℕ) (handle : Bool) (job : Int) :
    Tidy lifeLens.loose (connectWifi fuel handle job) LifeRc.pakCode := by
  refine tidy_bind (plain_modify fun _ => rfl) fun _ => tidy_bind (plain_call rfl trivial) fun _ => ?_
  exact tidy_map (g := LifeRc.pak) (onMod_loose (onTryConnectWifi_loose job))

theorem connectUsb_loose (job : Int) : Tidy lifeLens.loose (connectUsb job) LifeRc.pakCode := by
  have hconnect (connected : Rc) : Plain modLens.loose (onTryConnectUsb connected job) := by
    refine tidy_bind (plain_modify fun _ => rfl) fun _ => tidy_ite (plain_pure _) ?_
    refine tidy_bind (withRuntime_plain fujiusbSetup_ofRuntime).loosen fun rc => ?_
    exact tidy_ite (plain_pure _) (plain_pure _)
  refine tidy_bind (plain_call rfl trivial) fun _ => tidy_bind (plain_call rfl trivial) fun connected => ?_
  exact tidy_map (g := LifeRc.ptp) (onMod_loose (hconnect connected))

/-- **A call** tells the frontend of a fatal error just if it ends the session. -/
theorem Callback.fatals (hrun : Exec c.program priv h' rc priv') :
    Fuji.fatals h' = if Call.endsSession ⟨c, h, priv, h', rc⟩ then 1 else 0 := by
  cases c with
  | tryConnectUsb job => exact ((connectUsb_loose job).ends _ _ _ _ hrun).fatal
  | tryConnectWifi fuel handle job => exact ((connectWifi_loose fuel handle job).ends _ _ _ _ hrun).fatal
  | tryConnectBluetooth saved job =>
    obtain ⟨hcode, -⟩ := onTryConnectBluetooth_held hrun
    rw [if_neg (by simp [Call.endsSession, hcode])]
    refine List.countP_eq_zero.mpr fun e he hfatal => ?_
    have hop := onTryConnectBluetooth_issues _ _ hrun.reaches e he
    obtain ⟨op, r⟩ := e
    cases op with
    | base op => cases op <;> first | exact hop.elim | cases hfatal
    | bt dev op => cases hfatal
    | _ => exact hop.elim
  | _ => exact ((Callback.tidy_look rfl).ends _ _ _ _ hrun).fatal

/-- **The frontend is told of a fatal error** once in each call that ends the session, and in no
other. -/
theorem lifeRun_fatal (hrun : LifeRun calls h priv) :
    fatals h = calls.countP (fun c => c.endsSession) ∧
    ∀ c ∈ calls, fatals c.history = if c.endsSession then 1 else 0 := by
  induction hrun with
  | init hrun =>
    refine ⟨List.countP_eq_zero.mpr fun e he => ?_, by simp⟩
    rcases init_issues _ _ hrun.reaches e he with hop | hop <;> rw [hop] <;> exact Bool.false_ne_true
  | @call calls h h' priv priv' c rc _ hcall ih =>
    have hfatals : fatals h' = if Call.endsSession ⟨c, h, priv, h', rc⟩ then 1 else 0 :=
      Callback.fatals hcall
    refine ⟨?_, List.forall_mem_append.mpr ⟨ih.2, List.forall_mem_singleton.mpr hfatals⟩⟩
    rw [fatals, List.countP_append, List.countP_append, List.countP_singleton]
    rw [show h.countP (fun e => e.1.isFatal) = _ from ih.1, show h'.countP _ = _ from hfatals]
    simp

/-- A tick finds that the device is gone. -/
theorem lifeRun_fatal_disconnected : ∃ calls h priv, LifeRun calls h priv ∧ fatals h = 1 := by
  have hsimulate : (simulate obliging [.tryConnectBluetooth none 1, .idleTick] [] startHistory
      callocPriv).map (fun r => r.1.countP fun c => c.endsSession) = some 1 := by
    decide +kernel
  obtain ⟨⟨calls, h, priv⟩, hout, hcount⟩ := Option.map_eq_some_iff.mp hsimulate
  have hrun : LifeRun calls h priv := simulate_run lifeRun_start hout
  exact ⟨calls, h, priv, hrun, (lifeRun_fatal hrun).1.trans hcount⟩

end Fatal

/-! ### Widgets -/

/-- The widgets that the frontend has been given since the last connection was begun. -/
def widgetStep (names : List String) (e : Event LifeOp LifeOp.Ret) : List String :=
  match e.1 with
  | .ptpNew _ => []
  | .base (.setWidget name _) => name :: names
  | _ => names

def widgets (h : LifeHistory) : List String := h.foldl widgetStep []

/-- The frontend changes a widget only that it has been given, and commands have a name. -/
def Call.expected (c : Call) : Bool :=
  match c.callback with
  | .widgetUpdated name _ => decide (name ∈ widgets c.prior)
  | .customCommand argv => decide (argv ≠ [])
  | _ => true

/-- Does an operation of Bluetooth have the device among its arguments? -/
def BtOp.takesDevice : BtOp → Bool
  | getService _ | setDeviceCallback | manufacturerData | deviceConnect | createBond
  | saveSessionSignature _ _ => true
  | _ => false

/-- Is NULL used? -/
def LifeOp.usesNull : LifeOp → Bool
  | .bt dev op => !dev && op.takesDevice
  | .nullDereference => true
  | _ => false

/-- Is the button that switches to WiFi pressed without a Bluetooth device? -/
def Call.switchesWithout (c : Call) : Bool :=
  match c.callback with
  | .widgetUpdated name _ => decide (name = widgetSwitchWifi) && !c.before.dev
  | _ => false

section Widgets

variable {calls : List Call} {h h' : LifeHistory} {priv priv' : LifePriv} {c : Callback} {rc : LifeRc}
  {e : Event LifeOp LifeOp.Ret} {l : List String}

/-- An operation gives no widget but the one that switches to WiFi. -/
def LifeOp.GivesNone : LifeOp → Prop
  | .base (.setWidget name _) => name = widgetSwitchWifi
  | _ => True

theorem mem_widgets (ht : ∀ e ∈ h', e.1.GivesNone) :
    ∀ name ∈ h'.foldl widgetStep l, name ∈ l ∨ name = widgetSwitchWifi := by
  induction h' generalizing l with
  | nil => exact fun name hname => .inl hname
  | cons e t ih =>
    obtain ⟨he, hrest⟩ := List.forall_mem_cons.mp ht
    intro name hname
    rcases ih hrest name hname with hstep | hswitch
    · obtain ⟨op, r⟩ := e
      cases op with
      | ptpNew connectionType => cases hstep
      | base op =>
        cases op with
        | setWidget name' widget =>
          rcases List.mem_cons.mp hstep with rfl | hmem
          · exact .inr he
          · exact .inl hmem
        | _ => exact .inl hstep
      | _ => exact .inl hstep
    · exact .inr hswitch

/-- Without a runtime the frontend has no widget of one. -/
def WidgetsFit (h : LifeHistory) (priv : LifePriv) : Prop :=
  priv.r = none → ∀ name ∈ widgets h, name = widgetSwitchWifi

theorem calm_givesNone (he : e.1.Calm) : e.1.GivesNone := by
  obtain ⟨op, r⟩ := e
  rcases he with hsteady | hnull | hbluetooth
  · cases op with
    | base op =>
      cases op with
      | setWidget name widget => exact hsteady.elim
      | _ => trivial
    | _ => trivial
  · cases op with
    | bt dev op => trivial
    | nullDereference => trivial
    | _ => exact hnull.elim
  · cases op with
    | base op =>
      cases op with
      | setWidget name widget => exact hbluetooth
      | _ => trivial
    | _ => trivial

theorem widgetsFit_calm (hfit : WidgetsFit h priv) (hr : priv'.r.isSome = priv.r.isSome)
    (hcalm : ∀ e ∈ h', e.1.Calm) : WidgetsFit (h ++ h') priv' := by
  intro hnone name hname
  have hnone' : priv.r = none := by
    rw [hnone] at hr
    simpa using hr.symm
  rw [widgets, List.foldl_append] at hname
  rcases mem_widgets (fun e he => calm_givesNone (hcalm e he)) name hname with hmem | hswitch
  · exact hfit hnone' name hmem
  · exact hswitch

theorem widgetsFit_call (hfit : WidgetsFit h priv) (hrun : Exec c.program priv h' rc priv') :
    WidgetsFit (h ++ h') priv' := by
  have hcalm (hconnects : c.connects = false) : WidgetsFit (h ++ h') priv' := by
    have hends := (Callback.tidy_look hconnects).ends _ _ _ _ hrun
    exact widgetsFit_calm hfit hends.runtime (Callback.calm hconnects hrun.reaches)
  cases c with
  | tryConnectUsb job =>
    obtain ⟨connected, g, rc', mod, rfl, -, hconnect, rfl⟩ := connectUsb_exec hrun
    intro hnone
    have hsome := (onTryConnectUsb_held hconnect).1
    rw [show mod.r = none from hnone] at hsome
    cases hsome
  | tryConnectWifi fuel handle job =>
    obtain ⟨g, pak, mod, rfl, -, hconnect, rfl⟩ := connectWifi_exec hrun
    intro hnone name hname
    have hleaves : LeavesRuntime g mod := (always_onTryConnectWifi job).exec _ _ _ hconnect
    rw [LeavesRuntime, show mod.r = none from hnone, if_neg (by simp)] at hleaves
    obtain ⟨g₁, rfl, hg₁⟩ := hleaves
    rw [widgets, List.foldl_append, List.foldl_cons, List.map_append] at hname
    refine (mem_widgets (l := []) (fun e he => ?_) name hname).resolve_left (by simp)
    rcases List.mem_append.mp he with he | he
    · obtain ⟨⟨op, r⟩, he', rfl⟩ := List.mem_map.mp he
      have hop : op.OfRuntime := hg₁ _ he'
      cases op with
      | setWidget name widget => exact hop.elim
      | _ => trivial
    · obtain rfl := List.mem_singleton.mp he
      trivial
  | tryConnectBluetooth saved job =>
    obtain ⟨-, hheld⟩ := onTryConnectBluetooth_held hrun
    have hcalm := onTryConnectBluetooth_calm hrun.reaches
    exact widgetsFit_calm hfit (congrArg Holdings.runtime hheld) hcalm
  | _ => exact hcalm rfl

theorem lifeRun_widgetsFit (hrun : LifeRun calls h priv) : WidgetsFit h priv := by
  induction hrun with
  | @init h priv hrun =>
    intro _ name hname
    refine (mem_widgets (l := []) (fun e he => ?_) name hname).resolve_left (by simp)
    rcases init_issues _ _ hrun.reaches e he with hop | hop <;> rw [hop] <;> trivial
  | call _ hcall ih => exact widgetsFit_call ih hcall

/-- Operations that do not use NULL. -/
abbrev LifeOp.Founded (op : LifeOp) : Prop := op.usesNull = false

theorem LifeOp.Steady.founded {op : LifeOp} (hop : op.Steady) : op.Founded := by
  cases op with
  | bt dev op =>
    obtain rfl : dev = true := hop
    rfl
  | nullDereference => exact hop.elim
  | _ => rfl

theorem LifeOp.OfBluetooth.founded {op : LifeOp} (hop : op.OfBluetooth) : op.Founded := by
  cases op with
  | base op => rfl
  | bt dev op =>
    obtain rfl : dev = true := hop
    rfl
  | _ => exact hop.elim

theorem onBluetooth_founded {α : Type} (m : BtM α) : Issues LifeOp.Founded (onBluetooth true m) :=
  (embed_all nonempty_btRet).mono fun op hop => by
    obtain ⟨op', rfl⟩ := hop
    rfl

theorem onCommand_founded {argv : List Command} (hargv : argv ≠ []) :
    Issues LifeOp.Founded (onCommand argv) := by
  cases argv with
  | nil => exact absurd rfl hargv
  | cons command argv =>
    have hsend (params : Vector UInt8 2) : Issues LifeOp.Founded (do
        let rc ← onBluetooth true (sendShutterCommand shutterCmd params)
        return .bt rc : LifeM LifeRc) :=
      issues_bind (onBluetooth_founded _) fun _ => issues_pure _
    refine issues_bind issues_get fun priv => ?_
    by_cases hdev : priv.dev = true
    · rw [if_pos hdev, hdev]
      exact issues_ite (hsend _) (issues_ite (hsend _) (issues_ite (hsend _) (issues_pure _)))
    · rw [if_neg hdev]
      exact issues_pure _

/-- A widget of the runtime needs one, and the button that switches to WiFi a device. -/
theorem onPropChanged_founded {name : String} {v : Bool}
    (hname : priv.r = none → name = widgetSwitchWifi)
    (hdev : name = widgetSwitchWifi → priv.dev = true) :
    IssuesAt LifeOp.Founded (onPropChanged name v) priv := by
  have hset (f : PtpRuntime → PtpRuntime) (hswitch : name ≠ widgetSwitchWifi) :
      IssuesAt LifeOp.Founded (setOption f) priv := by
    cases hr : priv.r with
    | none => exact absurd (hname hr) hswitch
    | some r =>
      refine issuesAt_of_ret (a := .pak .ok) (t := { priv with r := some (f r) }) ?_
      rw [setOption, get_bind_apply]
      simp only [hr]
      rfl
  rw [onPropChanged]
  by_cases hswitch : name = widgetSwitchWifi
  · rw [if_pos hswitch]
    intro h hreach
    have hreach₀ := reaches_get_bind.mp hreach
    rw [hdev hswitch] at hreach₀
    exact issues_bind (onBluetooth_founded _) (fun _ => issues_pure _) _ _ hreach₀
  rw [if_neg hswitch]
  by_cases hthumbs : name = widgetAutosaveThumbs
  · rw [if_pos hthumbs]
    exact hset _ hswitch
  rw [if_neg hthumbs]
  by_cases hresize : name = widgetResizeImages
  · rw [if_pos hresize]
    exact hset _ hswitch
  · rw [if_neg hresize]
    exact (issues_pure _).at priv

/-- Without a device, the button that switches to WiFi asks for a service of NULL. -/
theorem onPropChanged_null {v : Bool} (hdev : priv.dev = false)
    (hrun : Exec (onPropChanged widgetSwitchWifi v) priv h rc priv') :
    ∃ e ∈ h, e.1.usesNull = true := by
  rw [onPropChanged, if_pos rfl] at hrun
  obtain ⟨h₁, rc', priv₁, h₂, rfl, hbluetooth, -⟩ := exec_of_bind (exec_get_bind.mp hrun)
  rw [hdev] at hbluetooth
  obtain ⟨bt, hconnect, -⟩ := exec_embed (v := seenBluetooth) (fun _ _ => rfl) hbluetooth
  obtain ⟨service, t, hseen, -⟩ := exec_call_bind.mp (exec_get_bind.mp hconnect)
  have hmem : (⟨.getService svcShutter, service⟩ : Event BtOp BtOp.Ret) ∈
      h₁.filterMap seenBluetooth := by
    rw [hseen]
    exact List.mem_cons_self
  obtain ⟨⟨op, r⟩, he, heq⟩ := List.mem_filterMap.mp hmem
  obtain ⟨op', hop⟩ := embed_all nonempty_btRet _ _ hbluetooth.reaches _ he
  obtain rfl : op = .bt false op' := hop
  cases heq
  exact ⟨_, List.mem_append_left h₂ he, rfl⟩

/-- **A call** that is expected uses NULL just if it is the button that switches to WiFi, pressed
without a device. -/
theorem Callback.usesNull (hfit : WidgetsFit h priv)
    (hexpected : Call.expected ⟨c, h, priv, h', rc⟩ = true)
    (hrun : Exec c.program priv h' rc priv') :
    (∃ e ∈ h', e.1.usesNull = true) ↔ Call.switchesWithout ⟨c, h, priv, h', rc⟩ = true := by
  have hnone (hfounded : ∀ e ∈ h', e.1.Founded)
      (hcall : Call.switchesWithout ⟨c, h, priv, h', rc⟩ = false) :
      (∃ e ∈ h', e.1.usesNull = true) ↔ Call.switchesWithout ⟨c, h, priv, h', rc⟩ = true := by
    rw [hcall]
    exact iff_of_false (fun ⟨e, he, hnull⟩ => Bool.false_ne_true ((hfounded e he).symm.trans hnull))
      Bool.false_ne_true
  have hsteady (hconnects : c.connects = false) (hlooks : c.looks = false) :
      ∀ e ∈ h', e.1.Founded :=
    fun e he => ((Callback.tidy hconnects hlooks).issues _ _ hrun.reaches e he).founded
  have hmod {g : History} : ∀ e ∈ g.map ofBase, e.1.Founded := by
    intro e he
    obtain ⟨e', -, rfl⟩ := List.mem_map.mp he
    rfl
  cases c with
  | tryConnectUsb job =>
    obtain ⟨connected, g, rc', mod, rfl, -, -, -⟩ := connectUsb_exec hrun
    exact hnone (List.forall_mem_cons.mpr ⟨rfl, List.forall_mem_cons.mpr ⟨rfl, hmod⟩⟩) rfl
  | tryConnectWifi fuel handle job =>
    obtain ⟨g, pak, mod, rfl, -, -, -⟩ := connectWifi_exec hrun
    exact hnone (List.forall_mem_cons.mpr ⟨rfl, hmod⟩) rfl
  | tryConnectBluetooth saved job =>
    have hall := onTryConnectBluetooth_issues _ _ hrun.reaches
    exact hnone (fun e he => (hall e he).founded) rfl
  | customCommand argv =>
    exact hnone (onCommand_founded (of_decide_eq_true hexpected) _ _ hrun.reaches) rfl
  | widgetUpdated name v =>
    have hwidget (hr : priv.r = none) : name = widgetSwitchWifi :=
      hfit hr name (of_decide_eq_true hexpected)
    by_cases hwithout : name = widgetSwitchWifi ∧ priv.dev = false
    · obtain ⟨rfl, hdev⟩ := hwithout
      exact iff_of_true (onPropChanged_null hdev hrun) (by simp [Call.switchesWithout, hdev])
    · refine hnone (onPropChanged_founded hwidget (fun hswitch => ?_) _ hrun.reaches) ?_
      · exact (Bool.eq_false_or_eq_true priv.dev).resolve_right fun hdev => hwithout ⟨hswitch, hdev⟩
      · simpa [Call.switchesWithout] using hwithout
  | _ => exact hnone (hsteady rfl rfl) rfl

/-- **NULL is used** in a run just where the button that switches to WiFi is pressed without a
Bluetooth device, if the frontend changes only widgets that it has been given since the last
connection was begun, and sends only commands with a name. -/
theorem lifeRun_widgets (hrun : LifeRun calls h priv) (hcalls : ∀ c ∈ calls, c.expected = true) :
    (∃ e ∈ h, e.1.usesNull = true) ↔ ∃ c ∈ calls, c.switchesWithout = true := by
  induction hrun with
  | init hrun =>
    refine iff_of_false (fun ⟨e, he, hnull⟩ => ?_) (by simp)
    rcases init_issues _ _ hrun.reaches e he with hop | hop <;> rw [hop] at hnull <;> cases hnull
  | @call calls h h' priv priv' c rc hrun hcall ih =>
    obtain ⟨hbefore, hlast⟩ := List.forall_mem_append.mp hcalls
    have hlast := Callback.usesNull (lifeRun_widgetsFit hrun) (hlast _ List.mem_cons_self) hcall
    simp only [List.mem_append, or_and_right, exists_or, ih hbefore, hlast, List.mem_singleton,
      exists_eq_left]

/-- A camera that accepts everything, but not over Bluetooth. -/
def wired : (op : LifeOp) → op.Ret
  | .bt _ .deviceConnect => BtRc.noConnection
  | op => obliging op

/-- The size of the images is changed on a connection over WiFi, and then a connection over
Bluetooth is refused, whose button stays. -/
theorem lifeRun_widgets_refused :
    (∃ calls h priv, LifeRun calls h priv ∧ calls.length = 2 ∧ ¬ ∃ e ∈ h, e.1.usesNull = true) ∧
    ∃ calls h priv, LifeRun calls h priv ∧ calls.length = 4 ∧ ∃ e ∈ h, e.1.usesNull = true := by
  have hcalm : (simulate wired [.tryConnectWifi 1 true 1, .widgetUpdated widgetResizeImages true]
      [] startHistory callocPriv).map (fun r => (r.1.length, r.1.all Call.expected,
        r.1.any Call.switchesWithout)) = some (2, true, false) := by
    decide +kernel
  have hrefused : (simulate wired [.tryConnectWifi 1 true 1, .widgetUpdated widgetResizeImages true,
      .tryConnectBluetooth none 2, .widgetUpdated widgetSwitchWifi true] [] startHistory
      callocPriv).map (fun r => (r.1.length, r.1.all Call.expected, r.1.any Call.switchesWithout)) =
      some (4, true, true) := by
    decide +kernel
  constructor
  · obtain ⟨⟨calls, h, priv⟩, hout, heq⟩ := Option.map_eq_some_iff.mp hcalm
    obtain ⟨hlength, hrest⟩ := Prod.mk.inj heq
    obtain ⟨hexpected, hwithout⟩ := Prod.mk.inj hrest
    have hrun : LifeRun calls h priv := simulate_run lifeRun_start hout
    refine ⟨calls, h, priv, hrun, hlength, fun hnull => ?_⟩
    have hany := (lifeRun_widgets hrun (List.all_eq_true.mp hexpected)).mp hnull
    exact Bool.false_ne_true (hwithout.symm.trans (List.any_eq_true.mpr hany))
  · obtain ⟨⟨calls, h, priv⟩, hout, heq⟩ := Option.map_eq_some_iff.mp hrefused
    obtain ⟨hlength, hrest⟩ := Prod.mk.inj heq
    obtain ⟨hexpected, hwithout⟩ := Prod.mk.inj hrest
    have hrun : LifeRun calls h priv := simulate_run lifeRun_start hout
    exact ⟨calls, h, priv, hrun, hlength, (lifeRun_widgets hrun (List.all_eq_true.mp hexpected)).mpr
      (List.any_eq_true.mp hwithout)⟩

end Widgets

end Fuji
