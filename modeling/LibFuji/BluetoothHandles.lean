/-
The handles of Bluetooth (`bluetooth.c`).

While a function waits for the runtime, `device_callback` may be called, and again while that waits
(`deliver`).  In every such run nothing is given back that has not been obtained, and when the
function returns, everything has been, unless something in the run `leaks`:
`fuji_connect_bluetooth` keeps a handle whenever the camera has a service to pair with, and
`send_client_name` when the name is not accepted (`allReleased_iff`).
-/
import LibFuji.Bluetooth
import LibFuji.Custody

namespace Fuji

open Interaction

/-! ### Callbacks -/

/-- The operations of the runtime, before each of which events may have come. -/
inductive CallbackOp
  | base (op : BtOp)
  | events

@[reducible] def CallbackOp.Ret : CallbackOp → Type
  | base op => op.Ret
  | events => List BtEvent

/-- Programs with callbacks. -/
abbrev CallbackM : Type → Type := StateT Unit (Prog CallbackOp CallbackOp.Ret)

/-- Histories with callbacks. -/
abbrev CallbackHistory : Type := List (Event CallbackOp CallbackOp.Ret)

/-- `device_callback` is called for events one after the other. -/
def callBack (f : Handler BtOp BtOp.Ret Unit Unit CallbackOp CallbackOp.Ret) (priv : BtPriv) :
    List BtEvent → CallbackM Unit
  | [] => return ()
  | ev :: evs => do
    let _ ← (deviceCallback ev priv).interp f ()
    callBack f priv evs

/-- An operation with the callbacks before it, nested `n` times at most.  They do not change the
state. -/
def deliver (priv : BtPriv) : ℕ → Handler BtOp BtOp.Ret Unit Unit CallbackOp CallbackOp.Ret
  | 0, op, _ => do
    let r : op.Ret ← call (CallbackOp.base op)
    return (r, ())
  | n + 1, op, _ => do
    let evs : List BtEvent ← call CallbackOp.events
    callBack (deliver priv n) priv evs
    let r : op.Ret ← call (CallbackOp.base op)
    return (r, ())

/-- A function of Bluetooth with its arguments. -/
inductive BtCall
  | subscribe (uuidSvc uuidChr : String) (notif : Int)
  | sendShutterCommand (cmd params : Vector UInt8 2)
  | updateGeoData
  | getCharacteristicAsString (svcuuid chruuid : String) {max : ℕ} (buf : Vector UInt8 max)
  | sendClientName (pairService : ℕ)
  | fujiBluetoothConnectToWifi
  | deviceCallback (ev : BtEvent)
  | fujiConnectBluetooth (saved : Option (Vector UInt8 4))

/-- What a function returns. -/
@[reducible] def BtCall.Result : BtCall → Type
  | @getCharacteristicAsString _ _ max _ => BtRc × Vector UInt8 max
  | _ => BtRc

/-- The program of a function. -/
def BtCall.program : (c : BtCall) → BtM c.Result
  | subscribe uuidSvc uuidChr notif => Fuji.subscribe uuidSvc uuidChr notif
  | sendShutterCommand cmd params => Fuji.sendShutterCommand cmd params
  | updateGeoData => Fuji.updateGeoData
  | getCharacteristicAsString svcuuid chruuid buf =>
    Fuji.getCharacteristicAsString svcuuid chruuid buf
  | sendClientName pairService => Fuji.sendClientName pairService
  | fujiBluetoothConnectToWifi => Fuji.fujiBluetoothConnectToWifi
  | deviceCallback ev => Fuji.deviceCallback ev
  | fujiConnectBluetooth saved => Fuji.fujiConnectBluetooth saved

/-- The outermost call of a function. -/
def BtCall.outermost (c : BtCall) (n : ℕ) (priv : BtPriv) : CallbackM (c.Result × BtPriv) :=
  (c.program priv).interp (deliver priv n) ()

/-! ### What is given back -/

/-- A handle of the runtime. -/
inductive Handle
  | service (handle : ℕ)
  | characteristic (handle : ℕ)
  deriving DecidableEq

/-- Does an operation obtain a handle? -/
def obtains (x : Handle) : Event CallbackOp CallbackOp.Ret → Bool
  | ⟨.base (.getService _), r⟩ => decide ((r : Option ℕ).map .service = some x)
  | ⟨.base (.getCharacteristic _ _), r⟩ => decide ((r : Option ℕ).map .characteristic = some x)
  | _ => false

/-- Does an operation give a handle back? -/
def unrefs (x : Handle) : Event CallbackOp CallbackOp.Ret → Bool
  | ⟨.base (.unrefService handle), _⟩ => decide (.service handle = x)
  | ⟨.base (.unrefCharacteristic handle), _⟩ => decide (.characteristic handle = x)
  | _ => false

/-- Is a handle kept behind an operation of a function? -/
def leaks : BtCall → Event CallbackOp CallbackOp.Ret → Bool
  | .sendClientName _, ⟨.base (.write chr _), rc⟩ =>
    decide (chr.uuid = chrIden ∧ (rc : BtRc) ≠ .ok)
  | .fujiConnectBluetooth _, ⟨.base (.getService uuid), r⟩ =>
    decide ((uuid = svcPair ∨ uuid = svcSecurePair) ∧ (r : Option ℕ) ≠ none)
  | _, _ => false

/-- Every handle has been given back as often as it has been obtained, and at no time more
often. -/
structure AllReleased (h : CallbackHistory) : Prop where
  not_twice : ∀ h₁, h₁ <+: h → ∀ x, h₁.countP (unrefs x) ≤ h₁.countP (obtains x)
  released : ∀ x, h.countP (unrefs x) = h.countP (obtains x)

/-! ### The ledger of handles -/

/-- What is in hand: handles, and the number of leaks so far. -/
abbrev Holding : Type := Option Handle → ℤ

/-- One handle. -/
def oneHandle (x : Handle) : Holding := Pi.single (some x) 1

/-- One leak. -/
def oneLeak : Holding := Pi.single none 1

/-- What an operation of a function takes. -/
def weight (c : BtCall) (e : Event CallbackOp CallbackOp.Ret) : Holding
  | none => if leaks c e = true then 1 else 0
  | some x => (if obtains x e = true then 1 else 0) - if unrefs x e = true then 1 else 0

/-- The same for an operation of the program. -/
def opWeight (c : BtCall) (e : Event BtOp BtOp.Ret) : Holding := weight c ⟨.base e.1, e.2⟩

/-- Something is left just if there was a leak. -/
def Consistent (b : Holding) : Prop := (∀ x, b (some x) = 0) ↔ b none = 0

section Ledger

variable {c : BtCall} {h : CallbackHistory} {x : Handle} {b : Holding}

theorem oneHandle_nonneg (x : Handle) : 0 ≤ oneHandle x := Pi.single_nonneg.mpr (by decide)

theorem oneLeak_nonneg : 0 ≤ oneLeak := Pi.single_nonneg.mpr (by decide)

theorem takings_none : takings (weight c) h none = h.countP (leaks c) := by
  induction h with
  | nil => rfl
  | cons e h ih =>
    rw [takings_cons, Pi.add_apply, ih, List.countP_cons, weight]
    split_ifs <;> push_cast <;> ring

theorem takings_some :
    takings (weight c) h (some x) = h.countP (obtains x) - h.countP (unrefs x) := by
  induction h with
  | nil => rfl
  | cons e h ih =>
    rw [takings_cons, Pi.add_apply, ih, List.countP_cons, List.countP_cons, weight]
    split_ifs <;> push_cast <;> ring

theorem consistent_zero : Consistent 0 := iff_of_true (fun _ => rfl) rfl

/-- Behind a leak something is kept. -/
theorem consistent_of_le (hle : oneLeak + oneHandle x ≤ b) : Consistent b := by
  have hleak := hle none
  have hkept := hle (some x)
  simp only [oneLeak, oneHandle, Pi.add_apply, Pi.single_eq_same, ne_eq, reduceCtorEq,
    not_false_eq_true, Pi.single_eq_of_ne, add_zero, zero_add] at hleak hkept
  exact iff_of_false (fun hnone => by rw [hnone x] at hkept; omega) (by omega)

/-- What the ledger says of a history. -/
theorem allReleased_of_takings (hcov : ∀ h₁, h₁ <+: h → 0 ≤ takings (weight c) h₁)
    (hleft : Consistent (takings (weight c) h)) :
    AllReleased h ↔ ∀ e ∈ h, leaks c e = false := by
  have hreleased : (∀ x, h.countP (unrefs x) = h.countP (obtains x)) ↔
      ∀ x, takings (weight c) h (some x) = 0 := by
    refine forall_congr' fun x => ?_
    rw [takings_some]
    omega
  have hnone : takings (weight c) h none = 0 ↔ ∀ e ∈ h, leaks c e = false := by
    rw [takings_none, Nat.cast_eq_zero, List.countP_eq_zero]
    simp only [Bool.not_eq_true]
  rw [Consistent] at hleft
  rw [← hnone, ← hleft, ← hreleased]
  refine ⟨fun hall => hall.released, fun hall => ⟨fun h₁ hpre x => ?_, hall⟩⟩
  have hnonneg : (0 : ℤ) ≤ takings (weight c) h₁ (some x) := hcov h₁ hpre (some x)
  rw [takings_some] at hnonneg
  omega

/-! Which operations take something. -/

theorem opWeight_getService {uuid : String} {handle : ℕ}
    (hno : leaks c ⟨.base (.getService uuid), some handle⟩ = false) :
    opWeight c ⟨.getService uuid, some handle⟩ = oneHandle (.service handle) := by
  funext y
  cases y with
  | none => simp [opWeight, weight, hno, oneHandle]
  | some x => simp [opWeight, weight, obtains, unrefs, oneHandle, Pi.single_apply, eq_comm]

theorem opWeight_getCharacteristic {service : ℕ} {uuid : String} {handle : ℕ} :
    opWeight c ⟨.getCharacteristic service uuid, some handle⟩
      = oneHandle (.characteristic handle) := by
  funext y
  cases y with
  | none => cases c <;> simp [opWeight, weight, leaks, oneHandle]
  | some x => simp [opWeight, weight, obtains, unrefs, oneHandle, Pi.single_apply, eq_comm]

theorem opWeight_unrefService {handle : ℕ} {r : Unit} :
    opWeight c ⟨.unrefService handle, r⟩ = -oneHandle (.service handle) := by
  funext y
  cases y with
  | none => cases c <;> simp [opWeight, weight, leaks, oneHandle]
  | some x => simp [opWeight, weight, obtains, unrefs, oneHandle, Pi.single_apply, eq_comm]

theorem opWeight_unrefCharacteristic {handle : ℕ} {r : Unit} :
    opWeight c ⟨.unrefCharacteristic handle, r⟩ = -oneHandle (.characteristic handle) := by
  funext y
  cases y with
  | none => cases c <;> simp [opWeight, weight, leaks, oneHandle]
  | some x => simp [opWeight, weight, obtains, unrefs, oneHandle, Pi.single_apply, eq_comm]

/-- Operations with which no handle changes hands, unless they leak one. -/
def BtOp.Free : BtOp → Prop
  | getService _ | getCharacteristic _ _ | unrefService _ | unrefCharacteristic _ => False
  | _ => True

theorem opWeight_free {op : BtOp} {r : op.Ret} (hop : op.Free)
    (hno : leaks c ⟨.base op, r⟩ = false) : opWeight c ⟨op, r⟩ = 0 := by
  funext y
  cases y with
  | none => simp [opWeight, weight, hno]
  | some x => cases op <;> first | exact hop.elim | rfl

end Ledger

/-! ### Programs -/

section Programs

variable {c : BtCall} {b : Holding} {α : Type} {Q : α → Holding → Prop}

theorem custody_free {op : BtOp} {k : op.Ret → BtM α} (hb : 0 ≤ b) (hop : op.Free)
    (hno : ∀ r, leaks c ⟨.base op, r⟩ = false) (hk : ∀ r, Custody (opWeight c) b (k r) Q) :
    Custody (opWeight c) b (askBt op >>= k) Q :=
  custody_free_bind hb (fun r => opWeight_free hop (hno r)) hk

/-- A service is given back. -/
theorem custody_unrefService {handle : ℕ} {k : Unit → BtM α} (hb : 0 ≤ b)
    (hk : Custody (opWeight c) b (k ()) Q) :
    Custody (opWeight c) (b + oneHandle (.service handle)) (askBt (.unrefService handle) >>= k) Q := by
  refine custody_call_bind (add_nonneg hb (oneHandle_nonneg _)) fun r => ?_
  rw [opWeight_unrefService, add_neg_cancel_right]
  exact hk

/-- A characteristic is given back. -/
theorem custody_unrefCharacteristic {handle : ℕ} {k : Unit → BtM α} (hb : 0 ≤ b)
    (hk : Custody (opWeight c) b (k ()) Q) :
    Custody (opWeight c) (b + oneHandle (.characteristic handle))
      (askBt (.unrefCharacteristic handle) >>= k) Q := by
  refine custody_call_bind (add_nonneg hb (oneHandle_nonneg _)) fun r => ?_
  rw [opWeight_unrefCharacteristic, add_neg_cancel_right]
  exact hk

/-- A characteristic of a service in hand is obtained, or not. -/
theorem custody_getCharacteristic {service : ℕ} {uuid : String} {k : Option ℕ → BtM α}
    (hb : 0 ≤ b) (hnone : Custody (opWeight c) b (k none) Q)
    (hsome : ∀ handle, Custody (opWeight c) (b + oneHandle (.characteristic handle))
      (k (some handle)) Q) :
    Custody (opWeight c) b (askBt (.getCharacteristic service uuid) >>= k) Q := by
  refine custody_call_bind hb fun r => ?_
  cases r with
  | none =>
    have hzero : opWeight c ⟨.getCharacteristic service uuid, none⟩ = 0 := by
      funext y
      cases y with
      | none => cases c <;> simp [opWeight, weight, leaks]
      | some x => simp [opWeight, weight, obtains, unrefs]
    rw [hzero, add_zero]
    exact hnone
  | some handle =>
    rw [opWeight_getCharacteristic]
    exact hsome handle

/-- A service is obtained, or not. -/
theorem custody_getService {uuid : String} {k : Option ℕ → BtM α} (hb : 0 ≤ b)
    (hnone : Custody (opWeight c) b (k none) Q)
    (hsome : ∀ handle, Custody (opWeight c) (b + opWeight c ⟨.getService uuid, some handle⟩)
      (k (some handle)) Q) :
    Custody (opWeight c) b (askBt (.getService uuid) >>= k) Q := by
  refine custody_call_bind hb fun r => ?_
  cases r with
  | none =>
    have hzero : opWeight c ⟨.getService uuid, none⟩ = 0 := by
      funext y
      cases y with
      | none => cases c <;> simp [opWeight, weight, leaks]
      | some x => simp [opWeight, weight, obtains, unrefs]
    rw [hzero, add_zero]
    exact hnone
  | some handle => exact hsome handle

/-- A service and a characteristic are obtained, or neither is in hand. -/
theorem custody_withGatt {missing : α} {uuidSvc uuidChr : String}
    {k : ℕ → GattCharacteristic → BtM α} (hb : 0 ≤ b)
    (hno : ∀ handle, leaks c ⟨.base (.getService uuidSvc), some handle⟩ = false)
    (hmissing : Q missing b)
    (hk : ∀ service chr, chr.uuid = uuidChr → Custody (opWeight c)
      (b + oneHandle (.service service) + oneHandle (.characteristic chr.handle)) (k service chr) Q) :
    Custody (opWeight c) b (withGatt missing uuidSvc uuidChr k) Q := by
  refine custody_getService hb (custody_pure hb hmissing) fun service => ?_
  rw [opWeight_getService (hno service)]
  refine custody_getCharacteristic (add_nonneg hb (oneHandle_nonneg _)) ?_ fun handle => ?_
  · exact custody_unrefService hb (custody_pure hb hmissing)
  · exact hk service ⟨handle, uuidChr⟩ rfl

end Programs

/-! ### What the functions give back -/

section Functions

variable {c : BtCall} {b : Holding}

theorem leaks_getService {uuid : String} {r : Option ℕ} (hpair : uuid ≠ svcPair)
    (hsecure : uuid ≠ svcSecurePair) : leaks c ⟨.base (.getService uuid), r⟩ = false := by
  cases c <;> simp [leaks, hpair, hsecure]

theorem leaks_write {chr : GattCharacteristic} {data : List UInt8} {rc : BtRc}
    (hiden : chr.uuid ≠ chrIden) : leaks c ⟨.base (.write chr data), rc⟩ = false := by
  cases c <;> simp [leaks, hiden]

theorem setProgress_settles (percent : Int) : Settles (opWeight c) 0 (setProgress percent) := by
  refine custody_get_bind fun priv => custody_call le_rfl fun r => ?_
  have hno : leaks c ⟨.base (.setProgressBar priv.currentJob percent), r⟩ = false := by
    cases c <;> rfl
  rw [opWeight_free (by trivial) hno, add_zero]
  exact ⟨le_rfl, rfl⟩

theorem subscribe_settles {uuidSvc uuidChr : String} {notif : Int}
    (hno : ∀ handle, leaks c ⟨.base (.getService uuidSvc), some handle⟩ = false) :
    Settles (opWeight c) 0 (subscribe uuidSvc uuidChr notif) := by
  refine custody_withGatt le_rfl hno rfl fun service chr _ => ?_
  have hs := oneHandle_nonneg (.service service)
  have hc := oneHandle_nonneg (.characteristic chr.handle)
  refine custody_free (by positivity) trivial (fun _ => by cases c <;> rfl) fun _ => ?_
  refine custody_free (by positivity) trivial (fun _ => by cases c <;> rfl) fun _ => ?_
  rw [add_right_comm]
  refine custody_unrefService (by positivity) (custody_unrefCharacteristic le_rfl ?_)
  exact custody_pure le_rfl rfl

theorem sendShutterCommand_settles {cmd params : Vector UInt8 2} :
    Settles (opWeight c) 0 (sendShutterCommand cmd params) := by
  refine custody_withGatt le_rfl (fun _ => leaks_getService (by decide) (by decide)) rfl
    fun service chr huuid => ?_
  have hs := oneHandle_nonneg (.service service)
  have hc := oneHandle_nonneg (.characteristic chr.handle)
  have hno (data : List UInt8) (rc : BtRc) : leaks c ⟨.base (.write chr data), rc⟩ = false :=
    leaks_write (by rw [huuid]; decide)
  refine custody_free (by positivity) trivial (hno _) fun _ => ?_
  refine custody_free (by positivity) trivial (hno _) fun _ => ?_
  refine custody_unrefCharacteristic (by positivity) (custody_unrefService le_rfl ?_)
  exact custody_pure le_rfl rfl

theorem updateGeoData_settles : Settles (opWeight c) 0 updateGeoData := by
  refine custody_withGatt le_rfl (fun _ => leaks_getService (by decide) (by decide)) rfl
    fun service chr huuid => ?_
  have hs := oneHandle_nonneg (.service service)
  have hc := oneHandle_nonneg (.characteristic chr.handle)
  refine custody_free (by positivity) trivial (fun _ => by cases c <;> rfl) fun ts => ?_
  refine custody_free (by positivity) trivial (fun _ => leaks_write (by rw [huuid]; decide))
    fun _ => ?_
  refine custody_unrefCharacteristic (by positivity) (custody_unrefService le_rfl ?_)
  exact custody_pure le_rfl rfl

theorem deviceCallback_settles (ev : BtEvent) : Settles (opWeight c) 0 (deviceCallback ev) := by
  have hok : Settles (opWeight c) 0 (pure .ok : BtM BtRc) := custody_pure le_rfl rfl
  cases ev with
  | servicesDiscovered => exact (setProgress_settles 30).bind le_rfl fun _ => hok
  | connected => exact (setProgress_settles 20).bind le_rfl fun _ => hok
  | gattCharChanged uuid =>
    refine custody_ite (custody_withGatt le_rfl
      (fun _ => leaks_getService (by decide) (by decide)) rfl fun service chr huuid => ?_) hok
    have hs := oneHandle_nonneg (.service service)
    have hc := oneHandle_nonneg (.characteristic chr.handle)
    refine custody_free (by positivity) trivial (fun _ => by cases c <;> rfl) fun ts => ?_
    refine custody_free (by positivity) trivial (fun _ => leaks_write (by rw [huuid]; decide))
      fun _ => ?_
    exact custody_unrefCharacteristic (by positivity) (custody_unrefService le_rfl hok)
  | disconnected => exact hok
  | other => exact hok

theorem readCachedString_settles {max : ℕ} {chr : GattCharacteristic} {buf : Vector UInt8 max} :
    Settles (opWeight c) 0 (readCachedString chr buf) := by
  refine custody_free le_rfl trivial (fun _ => by cases c <;> rfl) fun value => ?_
  by_cases hfit : min value.length max < max
  · rw [dif_pos hfit]
    exact custody_pure le_rfl rfl
  · rw [dif_neg hfit]
    exact custody_free le_rfl trivial (fun _ => by cases c <;> rfl) fun _ => custody_pure le_rfl rfl

theorem getCharacteristicAsString_settles {svcuuid chruuid : String} {max : ℕ}
    {buf : Vector UInt8 max}
    (hno : ∀ handle, leaks c ⟨.base (.getService svcuuid), some handle⟩ = false) :
    Settles (opWeight c) 0 (getCharacteristicAsString svcuuid chruuid buf) := by
  refine custody_withGatt le_rfl hno rfl fun service chr _ => ?_
  have hs := oneHandle_nonneg (.service service)
  have hc := oneHandle_nonneg (.characteristic chr.handle)
  have hend (r : BtRc × Vector UInt8 max) : Custody (opWeight c)
      (0 + oneHandle (.service service) + oneHandle (.characteristic chr.handle)) (do
        askBt (.unrefCharacteristic chr.handle)
        askBt (.unrefService service)
        return r : BtM (BtRc × Vector UInt8 max)) fun _ b => b = 0 :=
    custody_unrefCharacteristic (by positivity)
      (custody_unrefService le_rfl (custody_pure le_rfl rfl))
  refine custody_free (by positivity) trivial (fun _ => by cases c <;> rfl) fun rc => ?_
  exact custody_ite (readCachedString_settles.bind (by positivity) fun _ => hend _) (hend _)

theorem fujiBluetoothConnectToWifi_settles : Settles (opWeight c) 0 fujiBluetoothConnectToWifi := by
  have hwatch (filter : WiFiApFilter) : Settles (opWeight c) 0 (watchWifi filter) := by
    refine custody_withGatt le_rfl (fun _ => leaks_getService (by decide) (by decide)) rfl
      fun service chr huuid => ?_
    have hs := oneHandle_nonneg (.service service)
    have hc := oneHandle_nonneg (.characteristic chr.handle)
    have hend (rc : BtRc) : Custody (opWeight c)
        (0 + oneHandle (.service service) + oneHandle (.characteristic chr.handle)) (do
          askBt (.unrefService service)
          askBt (.unrefCharacteristic chr.handle)
          return rc : BtM BtRc) fun _ b => b = 0 := by
      rw [add_right_comm]
      exact custody_unrefService (by positivity)
        (custody_unrefCharacteristic le_rfl (custody_pure le_rfl rfl))
    have hread (rc : BtRc) : Custody (opWeight c)
        (0 + oneHandle (.service service) + oneHandle (.characteristic chr.handle)) (do
          let value : List UInt8 ← askBt (.cachedValue chr 2)
          let _ ← if (copyCached #v[0xff, 0xff] value)[0] = 0 then
              askBt (.addUserInstruction "Camera is busy, can't connect. Switch to liveview.")
            else askBt (.addWifiConnection filter "wifi-from-bt-xapp")
          askBt (.unrefService service)
          askBt (.unrefCharacteristic chr.handle)
          return rc : BtM BtRc) fun _ b => b = 0 := by
      refine custody_free (by positivity) trivial (fun _ => by cases c <;> rfl) fun value => ?_
      refine custody_ite ?_ ?_
      · exact custody_free (by positivity) trivial (fun _ => by cases c <;> rfl) fun _ => hend rc
      · exact custody_free (by positivity) trivial (fun _ => by cases c <;> rfl) fun _ => hend rc
    refine custody_free (by positivity) trivial (fun _ => by cases c <;> rfl) fun rc => ?_
    refine custody_ite ?_ (hread rc)
    exact custody_free (by positivity) trivial (fun _ => by cases c <;> rfl) fun _ => hread rc
  refine custody_get_bind fun priv => custody_withGatt le_rfl
    (fun _ => leaks_getService (by decide) (by decide)) rfl fun service chr huuid => ?_
  have hs := oneHandle_nonneg (.service service)
  have hc := oneHandle_nonneg (.characteristic chr.handle)
  refine custody_free (by positivity) trivial (fun _ => leaks_write (by rw [huuid]; decide)) fun _ => ?_
  exact custody_unrefCharacteristic (by positivity) (custody_unrefService le_rfl (hwatch _))

/-- As the outermost call, the name keeps its characteristic just if it is not accepted. -/
theorem sendClientName_consistent (pairService : ℕ) :
    Custody (opWeight (.sendClientName pairService)) 0 (sendClientName pairService)
      fun _ => Consistent := by
  refine custody_getCharacteristic le_rfl (custody_pure le_rfl consistent_zero) fun idenChr => ?_
  have hc := oneHandle_nonneg (.characteristic idenChr)
  refine custody_free (by positivity) trivial (fun _ => rfl) fun clientName => ?_
  refine custody_call_bind (by positivity) fun rc => ?_
  by_cases hrc : (rc : BtRc) ≠ .ok
  · have hleak : opWeight (.sendClientName pairService) ⟨.write ⟨idenChr, chrIden⟩ clientName, rc⟩
        = oneLeak := by
      funext y
      cases y with
      | none => simp [opWeight, weight, leaks, hrc, oneLeak]
      | some x => simp [opWeight, weight, obtains, unrefs, oneLeak]
    have hl := oneLeak_nonneg
    rw [hleak, if_pos hrc]
    refine custody_pure (by positivity) (consistent_of_le (x := .characteristic idenChr) ?_)
    rw [zero_add, add_comm]
  · have hno : leaks (.sendClientName pairService)
        ⟨.base (.write ⟨idenChr, chrIden⟩ clientName), rc⟩ = false := by
      simp [leaks, not_not.mp hrc]
    rw [opWeight_free (by trivial) hno, add_zero, if_neg hrc]
    exact custody_unrefCharacteristic le_rfl (custody_pure le_rfl consistent_zero)

/-- Within another call, the name gives nothing back that is not its own. -/
theorem sendClientName_keeps {pairService : ℕ} (hb : 0 ≤ b)
    (hno : ∀ chr data rc, leaks c ⟨.base (.write chr data), rc⟩ = false) :
    Custody (opWeight c) b (sendClientName pairService) fun _ d => b ≤ d := by
  refine custody_getCharacteristic hb (custody_pure hb le_rfl) fun idenChr => ?_
  have hc := oneHandle_nonneg (.characteristic idenChr)
  refine custody_free (by positivity) trivial (fun _ => by cases c <;> rfl) fun clientName => ?_
  refine custody_free (by positivity) trivial (hno _ _) fun rc => ?_
  refine custody_ite (custody_pure (by positivity) (le_add_of_nonneg_right hc)) ?_
  exact custody_unrefCharacteristic hb (custody_pure hb le_rfl)

theorem fillProps_settles : Settles (opWeight c) 0 fillProps := by
  have hset {max : ℕ} (prop : SessionProperty) (r : BtRc × Vector UInt8 max) :
      Settles (opWeight c) 0 (setSessionProperty prop r) := by
    refine custody_ite (custody_call le_rfl fun u => ?_) (custody_pure le_rfl rfl)
    rw [opWeight_free (by trivial) (by cases c <;> rfl), add_zero]
    exact ⟨le_rfl, rfl⟩
  have hread {max : ℕ} (svcuuid chruuid : String) (buf : Vector UInt8 max)
      (hpair : svcuuid ≠ svcPair) (hsecure : svcuuid ≠ svcSecurePair) :
      Settles (opWeight c) 0 (getCharacteristicAsString svcuuid chruuid buf) :=
    getCharacteristicAsString_settles fun _ => leaks_getService hpair hsecure
  refine custody_get_bind fun priv => ?_
  refine (hread _ _ _ (by decide) (by decide)).bind le_rfl fun name => custody_modify_bind ?_
  refine (hset .name name).bind le_rfl fun _ => ?_
  refine (hread _ _ _ (by decide) (by decide)).bind le_rfl fun fwVer => ?_
  refine (hset .fwVer fwVer).bind le_rfl fun _ => ?_
  refine (hread _ _ _ (by decide) (by decide)).bind le_rfl fun ssid => custody_modify_bind ?_
  refine custody_ite (custody_pure le_rfl rfl) ?_
  refine (hread _ _ _ (by decide) (by decide)).bind le_rfl fun password => custody_modify_bind ?_
  exact custody_pure le_rfl rfl

theorem finishConnection_settles (token : Vector UInt8 4) :
    Settles (opWeight c) 0 (finishConnection token) := by
  refine custody_get_bind fun priv => ?_
  refine custody_free le_rfl trivial (fun _ => by cases c <;> rfl) fun _ => ?_
  refine (setProgress_settles 100).bind le_rfl fun _ => ?_
  exact custody_free le_rfl trivial (fun _ => by cases c <;> rfl) fun _ => custody_pure le_rfl rfl

theorem subscribeAll_settles {subs : List (String × String × Int)}
    (hsubs : ∀ sub ∈ subs, sub.1 ≠ svcPair ∧ sub.1 ≠ svcSecurePair) (percent : Int) :
    Settles (opWeight c) 0 (subscribeAll percent subs) := by
  induction subs generalizing percent with
  | nil => exact custody_pure le_rfl rfl
  | cons sub subs ih =>
    obtain ⟨⟨hpair, hsecure⟩, hrest⟩ := List.forall_mem_cons.mp hsubs
    refine (subscribe_settles fun _ => leaks_getService hpair hsecure).bind le_rfl fun _ => ?_
    exact (setProgress_settles _).bind le_rfl fun _ => ih hrest _

end Functions

/-! ### Pairing -/

section Pairing

variable {saved : Option (Vector UInt8 4)} {b : Holding} {x : Handle}

/-- A service to pair with counts as a leak. -/
theorem opWeight_pairService {uuid : String} {handle : ℕ}
    (huuid : uuid = svcPair ∨ uuid = svcSecurePair) :
    opWeight (.fujiConnectBluetooth saved) ⟨.getService uuid, some handle⟩
      = oneLeak + oneHandle (.service handle) := by
  funext y
  cases y with
  | none => simp [opWeight, weight, leaks, huuid, oneLeak, oneHandle]
  | some x =>
    simp [opWeight, weight, obtains, unrefs, oneLeak, oneHandle, Pi.single_apply, eq_comm]

/-- What is kept is left behind. -/
theorem custody_of_kept {α : Type} {m : BtM α}
    (hm : Settles (opWeight (.fujiConnectBluetooth saved)) 0 m)
    (hle : oneLeak + oneHandle x ≤ b) :
    Custody (opWeight (.fujiConnectBluetooth saved)) b m fun _ => Consistent := by
  have hb : 0 ≤ b := (add_nonneg oneLeak_nonneg (oneHandle_nonneg x)).trans hle
  have hframe := hm.frame hb
  rw [zero_add] at hframe
  refine hframe.mono fun _ d _ hd => ?_
  rw [sub_eq_zero.mp hd]
  exact consistent_of_le hle

/-- A newer camera: the service is kept. -/
theorem securePairing_consistent (token : Vector UInt8 4) (pairService : ℕ) :
    Custody (opWeight (.fujiConnectBluetooth saved)) (oneLeak + oneHandle (.service pairService))
      (securePairing token pairService) fun _ => Consistent := by
  have hkept := oneLeak_nonneg
  have hs := oneHandle_nonneg (.service pairService)
  have hreturn {b : Holding} (rc : BtRc) (hle : oneLeak + oneHandle (.service pairService) ≤ b) :
      Custody (opWeight (.fujiConnectBluetooth saved)) b (pure rc : BtM BtRc) fun _ => Consistent :=
    custody_of_kept (custody_pure le_rfl rfl) hle
  refine custody_getCharacteristic (by positivity) (hreturn _ le_rfl) fun pairChr => ?_
  have hc := oneHandle_nonneg (.characteristic pairChr)
  have hle : oneLeak + oneHandle (.service pairService)
      ≤ oneLeak + oneHandle (.service pairService) + oneHandle (.characteristic pairChr) :=
    le_add_of_nonneg_right hc
  generalize oneLeak + oneHandle (.service pairService) + oneHandle (.characteristic pairChr) = b
    at hle
  have hb : 0 ≤ b := (add_nonneg hkept hs).trans hle
  refine custody_free hb trivial (fun _ => rfl) fun rc => custody_ite (hreturn _ hle) ?_
  refine custody_free hb trivial (fun _ => rfl) fun value => custody_ite (hreturn _ hle) ?_
  refine custody_free hb trivial (fun _ => rfl) fun rc => custody_ite (hreturn _ hle) ?_
  refine (setProgress_settles 50).bind hb fun _ => ?_
  refine custody_bind (sendClientName_keeps hb fun _ _ _ => rfl) fun rc d hd => ?_
  have hd' := hle.trans hd
  refine custody_ite (hreturn _ hd') (custody_of_kept ?_ hd')
  refine fillProps_settles.bind le_rfl fun _ => (setProgress_settles 55).bind le_rfl fun _ => ?_
  refine (subscribeAll_settles (by decide) 40).bind le_rfl fun _ => ?_
  exact finishConnection_settles token

/-- An older camera: the service is given back at last, but never the characteristic. -/
theorem legacyPairing_consistent (token : Vector UInt8 4) (pairService : ℕ) :
    Custody (opWeight (.fujiConnectBluetooth saved)) (oneLeak + oneHandle (.service pairService))
      (legacyPairing token pairService) fun _ => Consistent := by
  have hl := oneLeak_nonneg
  have hs := oneHandle_nonneg (.service pairService)
  have hreturn {b : Holding} (rc : BtRc) (hle : oneLeak + oneHandle (.service pairService) ≤ b) :
      Custody (opWeight (.fujiConnectBluetooth saved)) b (pure rc : BtM BtRc) fun _ => Consistent :=
    custody_of_kept (custody_pure le_rfl rfl) hle
  refine custody_getCharacteristic (by positivity) (hreturn _ le_rfl) fun pairChr => ?_
  have hc := oneHandle_nonneg (.characteristic pairChr)
  have hle : oneLeak + oneHandle (.service pairService)
      ≤ oneLeak + oneHandle (.service pairService) + oneHandle (.characteristic pairChr) :=
    le_add_of_nonneg_right hc
  refine custody_free (by positivity) trivial (fun _ => rfl) fun rc => custody_ite (hreturn _ hle) ?_
  refine (setProgress_settles 40).bind (by positivity) fun _ => ?_
  refine custody_bind (sendClientName_keeps (by positivity) fun _ _ _ => rfl) fun rc d hd => ?_
  refine custody_ite (hreturn _ (hle.trans hd)) ?_
  have hd0 : 0 ≤ d := (by positivity : (0 : Holding) ≤ _).trans hd
  refine fillProps_settles.bind hd0 fun _ => ?_
  -- the service is taken out of what is in hand
  have hkept : oneLeak + oneHandle (.characteristic pairChr)
        ≤ d - oneHandle (.service pairService) := by
    rw [le_sub_iff_add_le, add_right_comm]
    exact hd
  rw [← sub_add_cancel d (oneHandle (.service pairService))]
  refine custody_unrefService ((by positivity : (0 : Holding) ≤ _).trans hkept) ?_
  refine custody_of_kept ?_ hkept
  have hsub (uuidSvc uuidChr : String) (notif : Int) (hpair : uuidSvc ≠ svcPair)
      (hsecure : uuidSvc ≠ svcSecurePair) : Settles (opWeight (.fujiConnectBluetooth saved)) 0
        (subscribe uuidSvc uuidChr notif) :=
    subscribe_settles fun _ => leaks_getService hpair hsecure
  refine (setProgress_settles 50).bind le_rfl fun _ => ?_
  refine (hsub notXSvc chrUnknown1Ssid 1 (by decide) (by decide)).bind le_rfl fun _ => ?_
  refine (hsub svcConf chrInd1 1 (by decide) (by decide)).bind le_rfl fun _ => ?_
  refine (hsub svcConf chrInd2 1 (by decide) (by decide)).bind le_rfl fun _ => ?_
  refine (setProgress_settles 60).bind le_rfl fun _ => ?_
  refine (hsub svcConf chrNot1 1 (by decide) (by decide)).bind le_rfl fun _ => ?_
  refine (setProgress_settles 70).bind le_rfl fun _ => ?_
  refine (hsub svcConf geotagUpdate 1 (by decide) (by decide)).bind le_rfl fun _ => ?_
  refine (setProgress_settles 80).bind le_rfl fun _ => ?_
  refine (hsub svcConf chrInd3 1 (by decide) (by decide)).bind le_rfl fun _ => ?_
  exact finishConnection_settles token

theorem connectDevice_consistent (known : Bool) (token : Vector UInt8 4) :
    Custody (opWeight (.fujiConnectBluetooth saved)) 0 (connectDevice known token)
      fun _ => Consistent := by
  have hreturn (rc : BtRc) : Custody (opWeight (.fujiConnectBluetooth saved)) 0
      (pure rc : BtM BtRc) fun _ => Consistent := custody_pure le_rfl consistent_zero
  have hbond : Settles (opWeight (.fujiConnectBluetooth saved)) 0 (createBond known) := by
    refine custody_ite ?_ (custody_pure le_rfl rfl)
    refine custody_free le_rfl trivial (fun _ => rfl) fun rc => ?_
    exact custody_ite (custody_pure le_rfl rfl) (custody_pure le_rfl rfl)
  refine custody_free le_rfl trivial (fun _ => rfl) fun rc => custody_ite (hreturn _) ?_
  refine custody_getService le_rfl ?_ fun pairService => ?_
  · refine (setProgress_settles 35).bind le_rfl fun _ => hbond.bind le_rfl fun rc => ?_
    refine custody_ite (hreturn _) ((setProgress_settles 45).bind le_rfl fun _ => ?_)
    refine custody_getService le_rfl (hreturn _) fun pairService => ?_
    rw [opWeight_pairService (.inr rfl), zero_add]
    exact securePairing_consistent token pairService
  · rw [opWeight_pairService (.inl rfl), zero_add]
    exact legacyPairing_consistent token pairService

theorem fujiConnectBluetooth_consistent :
    Custody (opWeight (.fujiConnectBluetooth saved)) 0 (fujiConnectBluetooth saved)
      fun _ => Consistent := by
  refine custody_free le_rfl trivial (fun _ => rfl) fun _ => ?_
  refine (setProgress_settles 5).bind le_rfl fun _ => ?_
  cases hsaved : saved with
  | some auxData => exact connectDevice_consistent true auxData
  | none =>
    refine custody_free le_rfl trivial (fun _ => rfl) fun mfgdata => ?_
    refine custody_ite ?_ (connectDevice_consistent false _)
    exact custody_free le_rfl trivial (fun _ => rfl) fun _ => custody_pure le_rfl consistent_zero

end Pairing

/-! ### With callbacks -/

section Callbacks

variable {c : BtCall} {b : Holding}

/-- **Every function** is left with something just if it leaked. -/
theorem program_consistent (c : BtCall) :
    Custody (opWeight c) 0 c.program fun _ => Consistent := by
  have hsettled {α : Type} {m : BtM α} (hm : Settles (opWeight c) 0 m) :
      Custody (opWeight c) 0 m fun _ => Consistent := by
    refine hm.mono fun _ d _ hd => ?_
    rw [hd]
    exact consistent_zero
  cases c with
  | subscribe uuidSvc uuidChr notif => exact hsettled (subscribe_settles fun _ => rfl)
  | sendShutterCommand cmd params => exact hsettled sendShutterCommand_settles
  | updateGeoData => exact hsettled updateGeoData_settles
  | getCharacteristicAsString svcuuid chruuid buf =>
    exact hsettled (getCharacteristicAsString_settles fun _ => rfl)
  | sendClientName pairService => exact sendClientName_consistent pairService
  | fujiBluetoothConnectToWifi => exact hsettled fujiBluetoothConnectToWifi_settles
  | deviceCallback ev => exact hsettled (deviceCallback_settles ev)
  | fujiConnectBluetooth saved => exact fujiConnectBluetooth_consistent

/-- An operation takes what it takes, whatever callbacks come before it. -/
theorem deliver_custody (priv : BtPriv) (n : ℕ) (op : BtOp) (t : Unit) (b : Holding) (hb : 0 ≤ b)
    (hop : ∀ r, 0 ≤ b + opWeight c ⟨op, r⟩) :
    Custody (weight c) b (deliver priv n op t) fun r d => d = b + opWeight c ⟨op, r.1⟩ := by
  have hcall : Custody (weight c) b (do
      let r : op.Ret ← call (CallbackOp.base op)
      return (r, ()) : CallbackM (op.Ret × Unit)) fun r d => d = b + opWeight c ⟨op, r.1⟩ :=
    custody_call_bind hb fun r => custody_pure (hop r) rfl
  induction n generalizing op b with
  | zero => exact hcall
  | succ n ih =>
    have hevents (evs : List BtEvent) :
        Settles (weight c) 0 (callBack (deliver priv n) priv evs) := by
      induction evs with
      | nil => exact custody_pure le_rfl rfl
      | cons ev evs ihevs =>
        have hcallback : Settles (weight c) 0
            ((deviceCallback ev priv).interp (deliver priv n) ()) := by
          refine custody_interp (fun op t b hb hop => ih op b hb hop ?_)
            (deviceCallback_settles ev priv) ()
          exact custody_call_bind hb fun r => custody_pure (hop r) rfl
        exact hcallback.bind le_rfl fun _ => ihevs
    have hfree (evs : List BtEvent) : weight c ⟨.events, evs⟩ = 0 := by
      funext y
      cases y with
      | none => cases c <;> rfl
      | some x => rfl
    exact custody_free_bind hb hfree fun evs => (hevents evs).bind hb fun _ => hcall

/-- **What has been obtained is given back once**, when the outermost call returns and with any
callbacks on the way, just if nothing leaked. -/
theorem allReleased_iff {c : BtCall} {n : ℕ} {priv : BtPriv} {h : CallbackHistory}
    {out : c.Result × BtPriv} (hrun : Exec (c.outermost n priv) () h out ()) :
    AllReleased h ↔ ∀ e ∈ h, leaks c e = false := by
  have hcustody : Custody (weight c) 0 (c.outermost n priv) fun _ => Consistent :=
    custody_interp (deliver_custody priv n) (program_consistent c priv) ()
  obtain ⟨hreach, hexec⟩ := custody_iff.mp hcustody
  have hleft := hexec () h out () hrun
  rw [zero_add] at hleft
  refine allReleased_of_takings (fun h₁ hpre => ?_) hleft
  have hnonneg := hreach () h₁ (hrun.reaches.of_prefix hpre)
  rwa [zero_add] at hnonneg

end Callbacks

/-- A camera with every service and characteristic, where a change is reported before every
operation. -/
def pairable : (op : CallbackOp) → op.Ret
  | .base op => answering [1] op
  | .events => [.gattCharChanged chrNot1]

/-- WiFi is triggered, with a callback before every operation. -/
theorem allReleased_wifi : ∃ h out,
    Exec (BtCall.fujiBluetoothConnectToWifi.outermost 1 btInit) () h out () ∧ h.length = 96 ∧
      AllReleased h := by
  have htrace : ((BtCall.fujiBluetoothConnectToWifi.outermost 1 btInit ()).trace pairable).map
      (fun r => (r.1.length, decide (∀ e ∈ r.1, leaks .fujiBluetoothConnectToWifi e = false)))
        = some (96, true) := by
    decide +kernel
  obtain ⟨⟨h, out, u⟩, hsome, heq⟩ := Option.map_eq_some_iff.mp htrace
  obtain ⟨hlength, hnone⟩ := Prod.mk.inj heq
  have hrun : Exec (BtCall.fujiBluetoothConnectToWifi.outermost 1 btInit) () h out () :=
    (Prog.runs_of_trace hsome).1
  exact ⟨h, out, hrun, hlength, (allReleased_iff hrun).mpr (of_decide_eq_true hnone)⟩

/-- An older camera is paired with: the characteristic is kept. -/
theorem not_allReleased_legacy : ¬ ∀ (c : BtCall) (n : ℕ) (priv : BtPriv) (h : CallbackHistory)
    (out : c.Result × BtPriv), Exec (c.outermost n priv) () h out () → AllReleased h := by
  intro hall
  have htrace : (((BtCall.fujiConnectBluetooth none).outermost 0 btInit ()).trace pairable).map
      (fun r => decide (r.1.countP (unrefs (.characteristic 1))
        = r.1.countP (obtains (.characteristic 1)))) = some false := by
    decide +kernel
  obtain ⟨⟨h, out, u⟩, hsome, hcount⟩ := Option.map_eq_some_iff.mp htrace
  have hreleased := hall _ 0 btInit h out (Prog.runs_of_trace hsome).1
  exact of_decide_eq_false hcount (hreleased.released (.characteristic 1))

end Fuji
