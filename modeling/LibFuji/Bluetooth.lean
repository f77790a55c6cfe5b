/-
Cameras over Bluetooth (`bluetooth.c`).

`fuji_connect_bluetooth` pairs with a camera in one of two ways: older cameras have a service that
takes the token of their advertisement, newer ones are bonded and acknowledge a status.  Both then
get the name of the client, are asked for their properties, and subscribed to.

Services and characteristics are handles that have to be given back.
-/
import LibFuji.ByteCodec
import LibFuji.Interaction

namespace Fuji

open Interaction ByteCodec

/-! ### Identifiers -/

def svcSecurePair : String := "123d8f06-62a1-4935-9322-833c531ee225"
def chrSecureStatus : String := "f557d96b-8284-4667-8793-b971c1deca2a"
def not3Svc : String := "804daa8e-ffeb-4ab3-8e75-6edd7303208d"
def not3Chr : String := "7170fd5a-56d9-4c19-b043-7a7047d8e1a0"
def notXSvc : String := "4e941240-d01d-46b9-a5ea-67636806830b"
def chrUnknown1Ssid : String := "bf6dc9cf-3606-4ec9-a4c8-d77576e93ea4"
def chrUnknown1Password : String := "e809256a-915c-4967-92e8-53b7d4cad213"
def not5Chr : String := "75823784-fbb7-4b71-abae-cd9a34072e3c"
def not7Chr : String := "aab609c4-94dd-4d89-bc60-665d5090b828"
def not8Chr : String := "2a125640-706d-4dd1-b420-c0f4ab93c361"
def not9Chr : String := "82a9f452-c5ce-4ef5-8203-3fc9a47f8171"
def not10Chr : String := "deef7187-3f43-4364-9e22-11a8c8a15951"
def geotagSyncInterval : String := "c95d91ae-b247-4d6d-8661-7dd5d6a0f85b"
def svcUnknown3 : String := "e872b11f-d526-4ae1-9bb4-89a99d48fa59"
def chrUnknownTime : String := "b9bfd37f-ccad-4d36-a1ee-018e792b3edf"
def svcPair : String := "91f1de68-dff6-466e-8b65-ff13b0f16fb8"
def chrPair : String := "aba356eb-9633-4e60-b73f-f52516dbd671"
def chrIden : String := "85b9163e-62d1-49ff-a6f5-054b4630d4a1"
def svcConf : String := "4c0020fe-f3b6-40de-acc9-77d129067b14"
def not6Chr : String := "e6692c5c-b7cd-44f4-95fc-eda07ce32560"
def chrInd1 : String := "a68e3f66-0fcc-4395-8d4c-aa980b5877fa"
def chrInd2 : String := "bd17ba04-b76b-4892-a545-b73ba1f74dae"
def chrNot1 : String := "f9150137-5d40-4801-a8dc-f7fc5b01da50"
def chrInd3 : String := "049ec406-ef75-4205-a390-08fe209c51f0"
def geotagUpdate : String := "ad06c7b7-f41a-46f4-a29a-712055319122"
def svcShutter : String := "6514eb81-4e8f-458d-aa2a-e691336cdfac"
def chrShutter : String := "7fcf49c6-4ff0-4777-a03d-1a79166af7a8"
def chrShutter2 : String := "600655e6-3637-42f1-8fb2-44efc5c63b13"
def svcGeotag : String := "3b46ec2b-48ba-41fd-b1b8-ed860b60d22b"
def chrGeotag : String := "0f36ec14-29e5-411a-a1b6-64ee8383f090"
def genericAccessService : String := "00001800-0000-1000-8000-00805f9b34fb"
def deviceName : String := "00002a00-0000-1000-8000-00805f9b34fb"
def svcDeviceInformation : String := "0000180a-0000-1000-8000-00805f9b34fb"
def chrFirmwareRevision : String := "00002A26-0000-1000-8000-00805f9b34fb"

/-! ### Operations -/

/-- What the functions return. -/
inductive BtRc
  | ok | unsupported | noConnection
  | code (code : Int)
  deriving DecidableEq, Repr

/-- `enum PakBtEvent`; a change comes with the identifier of the characteristic. -/
inductive BtEvent
  | servicesDiscovered | connected | disconnected
  | gattCharChanged (uuid : String)
  | other

/-- `struct PakTimestamp`. -/
structure Timestamp where
  year : Int
  month : Int
  day : Int
  hour : Int
  minute : Int
  second : Int

/-- `struct PakGattCharacteristic`. -/
structure GattCharacteristic where
  handle : ℕ
  uuid : String

/-- The properties of a session. -/
inductive SessionProperty
  | name | fwVer

/-- `struct PakWiFiApFilter`. -/
structure WiFiApFilter where
  ssidPattern : Vector UInt8 64
  password : Option (Vector UInt8 64)
  isHidden : Bool

/-- The operations of the Bluetooth runtime. -/
inductive BtOp
  /-- `pak_bt_get_gatt_service_uuid` -/
  | getService (uuid : String)
  /-- `pak_bt_get_gatt_characteristic_uuid` -/
  | getCharacteristic (service : ℕ) (uuid : String)
  | unrefService (service : ℕ)
  | unrefCharacteristic (chr : ℕ)
  | setWatching (chr : GattCharacteristic) (notif : Int)
  | setCccd (chr : GattCharacteristic) (value : ℕ)
  | write (chr : GattCharacteristic) (data : List UInt8)
  | read (chr : GattCharacteristic)
  /-- `pak_bt_read_characteristic_cached_value`: the value, of which it copies what there is room
  for -/
  | cachedValue (chr : GattCharacteristic) (max : ℕ)
  /-- a write of a byte behind the end of an array -/
  | storeBehind (i : ℕ)
  /-- `pak_bt_watch_characteristic` -/
  | watch (chr : GattCharacteristic) (timeout : ℕ)
  | setDeviceCallback
  /-- `pak_bt_get_manufacturer_data`: the size, and the `adv_basic_t` behind the call -/
  | manufacturerData
  | deviceConnect
  | createBond
  | getTimestamp
  | clientName
  | setProgressBar (job percent : Int)
  | addUserInstruction (text : String)
  | addWifiConnection (filter : WiFiApFilter) (setupOption : String)
  | setSessionProperty (prop : SessionProperty) (value : List UInt8)
  | saveSessionSignature (name : Vector UInt8 64) (auxData : Vector UInt8 4)
  /-- `pak_rt_set_screen_supported` of the intervalometer -/
  | setScreenSupported

/-- The answers to an operation. -/
@[reducible] def BtOp.Ret : BtOp → Type
  | getService _ => Option ℕ
  | getCharacteristic _ _ => Option ℕ
  | setWatching _ _ => BtRc
  | setCccd _ _ => BtRc
  | write _ _ => BtRc
  | read _ => BtRc
  | cachedValue _ _ => List UInt8
  | watch _ _ => BtRc
  | manufacturerData => ℕ × Vector UInt8 7
  | deviceConnect => BtRc
  | createBond => BtRc
  | getTimestamp => Timestamp
  | clientName => List UInt8
  | _ => Unit

/-- The part of `struct ModulePriv` that Bluetooth uses. -/
structure BtPriv where
  currentJob : Int
  deviceNameBuf : Vector UInt8 64
  wifiSsidIsHidden : Bool
  wifiSsid : Vector UInt8 64
  wifiPassword : Vector UInt8 64

/-- Programs over Bluetooth. -/
abbrev BtM : Type → Type := StateT BtPriv (Prog BtOp BtOp.Ret)

/-- Histories over Bluetooth. -/
abbrev BtHistory : Type := List (Event BtOp BtOp.Ret)

/-- Ask the environment. -/
def askBt (op : BtOp) : BtM op.Ret := call op

/-- `pak_rt_set_progress_bar` of the current job. -/
def setProgress (percent : Int) : BtM Unit := do
  let priv ← get
  askBt (.setProgressBar priv.currentJob percent)

/-! ### Characteristics -/

/-- A service and one of its characteristics; the service is given back without the other. -/
def withGatt {α : Type} (missing : α) (uuidSvc uuidChr : String)
    (k : ℕ → GattCharacteristic → BtM α) : BtM α := do
  let service : Option ℕ ← askBt (.getService uuidSvc)
  match service with
  | none => return missing
  | some service =>
    let chr : Option ℕ ← askBt (.getCharacteristic service uuidChr)
    match chr with
    | none =>
      askBt (.unrefService service)
      return missing
    | some chr => k service ⟨chr, uuidChr⟩

/-- `subscribe`; errors behind the handles are logged. -/
def subscribe (uuidSvc uuidChr : String) (notif : Int) : BtM BtRc :=
  withGatt .unsupported uuidSvc uuidChr fun service chr => do
    let _ ← askBt (.setWatching chr notif)
    let _ ← askBt (.setCccd chr 1)
    askBt (.unrefService service)
    askBt (.unrefCharacteristic chr.handle)
    return .ok

/-- `send_shutter_command`. -/
def sendShutterCommand (cmd params : Vector UInt8 2) : BtM BtRc :=
  withGatt .unsupported svcShutter chrShutter fun service chr => do
    let _ ← askBt (.write chr cmd.toList)
    let _ ← askBt (.write chr params.toList)
    askBt (.unrefCharacteristic chr.handle)
    askBt (.unrefService service)
    return .ok

/-- `get_time_struct`. -/
def getTimeStruct : BtM (List UInt8) := do
  let ts : Timestamp ← askBt .getTimestamp
  return leBytes 2 (ts.year % 2 ^ 16).toNat ++ [UInt8.ofInt ts.month, UInt8.ofInt ts.day,
    UInt8.ofInt ts.hour, UInt8.ofInt ts.minute, UInt8.ofInt ts.second]

/-- `update_geo_data`. -/
def updateGeoData : BtM BtRc :=
  withGatt .unsupported svcGeotag chrGeotag fun service chr => do
    let gpsTime ← getTimeStruct
    let _ ← askBt (.write chr (leBytes 4 (123 * 10000000) ++ leBytes 4 (123 * 10000000) ++
      leBytes 4 50000 ++ [0, 0, 0, 0] ++ gpsTime))
    askBt (.unrefCharacteristic chr.handle)
    askBt (.unrefService service)
    return .ok

/-- `device_callback`. -/
def deviceCallback : BtEvent → BtM BtRc
  | .servicesDiscovered => do
    setProgress 30
    return .ok
  | .connected => do
    setProgress 20
    return .ok
  | .gattCharChanged uuid =>
    if uuid = chrNot1 then
      withGatt .unsupported svcUnknown3 chrUnknownTime fun service timeChr => do
        let timeStruct ← getTimeStruct
        let _ ← askBt (.write timeChr timeStruct)
        askBt (.unrefCharacteristic timeChr.handle)
        askBt (.unrefService service)
        return .ok
    else return .ok
  | .disconnected | .other => return .ok

/-- What is in an array behind the copy of a value. -/
def copyCached {max : ℕ} (buf : Vector UInt8 max) (value : List UInt8) : Vector UInt8 max :=
  ⟨(value.take max ++ buf.toList.drop value.length).toArray, by simp; omega⟩

/-- The value of a characteristic that has been read, with a terminator. -/
def readCachedString {max : ℕ} (chr : GattCharacteristic) (buf : Vector UInt8 max) :
    BtM (Vector UInt8 max) := do
  let value : List UInt8 ← askBt (.cachedValue chr max)
  if h : min value.length max < max then
    return (copyCached buf value).set (min value.length max) 0
  else
    askBt (.storeBehind (min value.length max))
    return copyCached buf value

/-- `get_characteristic_as_string`, to a buffer of `max` bytes. -/
def getCharacteristicAsString {max : ℕ} (svcuuid chruuid : String) (buf : Vector UInt8 max) :
    BtM (BtRc × Vector UInt8 max) :=
  withGatt (.unsupported, buf) svcuuid chruuid fun service chr => do
    let rc : BtRc ← askBt (.read chr)
    let buf ← if rc = .ok then readCachedString chr buf else pure buf
    askBt (.unrefCharacteristic chr.handle)
    askBt (.unrefService service)
    return (rc, buf)

/-! ### Connecting -/

/-- `fuji_bluetooth_connect_to_wifi` once the camera's WiFi has been triggered. -/
def watchWifi (filter : WiFiApFilter) : BtM BtRc :=
  withGatt .unsupported svcConf chrInd1 fun service chr => do
    let rc : BtRc ← askBt (.watch chr 500)
    let _ ← if rc ≠ .ok then
        askBt (.addUserInstruction "Something went wrong. please try again.")
      else pure ()
    let value : List UInt8 ← askBt (.cachedValue chr 2)
    let _ ← if (copyCached #v[0xff, 0xff] value)[0] = 0 then
        askBt (.addUserInstruction "Camera is busy, can't connect. Switch to liveview.")
      else askBt (.addWifiConnection filter "wifi-from-bt-xapp")
    askBt (.unrefService service)
    askBt (.unrefCharacteristic chr.handle)
    return rc

/-- `fuji_bluetooth_connect_to_wifi`. -/
def fujiBluetoothConnectToWifi : BtM BtRc := do
  let priv ← get
  let filter : WiFiApFilter :=
    { ssidPattern := priv.wifiSsid
      password := if priv.wifiSsidIsHidden = true then some priv.wifiPassword else none
      isHidden := priv.wifiSsidIsHidden }
  withGatt .unsupported svcShutter chrShutter2 fun service chr => do
    let _ ← askBt (.write chr [4, 0])
    askBt (.unrefCharacteristic chr.handle)
    askBt (.unrefService service)
    watchWifi filter

/-- `send_client_name`. -/
def sendClientName (pairService : ℕ) : BtM BtRc := do
  let idenChr : Option ℕ ← askBt (.getCharacteristic pairService chrIden)
  match idenChr with
  | none => return .noConnection
  | some idenChr =>
    let clientName : List UInt8 ← askBt .clientName
    let rc : BtRc ← askBt (.write ⟨idenChr, chrIden⟩ clientName)
    if rc ≠ .ok then return rc
    else
      askBt (.unrefCharacteristic idenChr)
      return .ok

/-- `fill_props` handing on a property that has been read. -/
def setSessionProperty {max : ℕ} (prop : SessionProperty) (r : BtRc × Vector UInt8 max) :
    BtM Unit :=
  if r.1 = .ok then askBt (.setSessionProperty prop r.2.toList) else return ()

/-- `fill_props`. -/
def fillProps : BtM BtRc := do
  let priv ← get
  let name ← getCharacteristicAsString genericAccessService deviceName priv.deviceNameBuf
  modify fun priv => { priv with deviceNameBuf := name.2 }
  setSessionProperty .name name
  let fwVer ← getCharacteristicAsString svcDeviceInformation chrFirmwareRevision
    (.replicate 64 0 : Vector UInt8 64)
  setSessionProperty .fwVer fwVer
  let ssid ← getCharacteristicAsString notXSvc chrUnknown1Ssid priv.wifiSsid
  modify fun priv => { priv with wifiSsid := ssid.2 }
  if ssid.1 ≠ .ok then return ssid.1
  else
    let password ← getCharacteristicAsString notXSvc chrUnknown1Password priv.wifiPassword
    modify fun priv =>
      { priv with
        wifiPassword := password.2
        wifiSsidIsHidden := if password.1 = .ok then true else priv.wifiSsidIsHidden }
    return .ok

/-- `fuji_connect_bluetooth` once the camera is set up. -/
def finishConnection (token : Vector UInt8 4) : BtM BtRc := do
  let priv ← get
  askBt (.saveSessionSignature priv.deviceNameBuf token)
  setProgress 100
  askBt .setScreenSupported
  return .ok

/-- The array `subscriptions` of `fuji_connect_bluetooth`. -/
def subscriptions : List (String × String × Int) :=
  [(svcConf, chrInd1, 0), (svcConf, chrInd2, 0), (svcConf, chrNot1, 1), (svcConf, geotagUpdate, 1),
    (not3Svc, not3Chr, 1), (notXSvc, chrUnknown1Ssid, 1), (notXSvc, not5Chr, 1),
    (svcConf, not6Chr, 1), (notXSvc, not7Chr, 1), (notXSvc, not8Chr, 1), (notXSvc, not9Chr, 1),
    (notXSvc, not10Chr, 1), (notXSvc, geotagSyncInterval, 1)]

/-- The loop over `subscriptions`. -/
def subscribeAll : Int → List (String × String × Int) → BtM Unit
  | _, [] => return ()
  | percent, (uuidSvc, uuidChr, flag) :: subs => do
    let _ ← subscribe uuidSvc uuidChr flag
    setProgress (percent + 3)
    subscribeAll (percent + 3) subs

/-- `fuji_connect_bluetooth` creating a bond with a camera that has not been saved. -/
def createBond (saved : Bool) : BtM BtRc :=
  if saved = false then do
    let rc : BtRc ← askBt .createBond
    if rc ≠ .ok then return .noConnection else return .ok
  else return .ok

/-- `fuji_connect_bluetooth` with the service of a newer camera. -/
def securePairing (token : Vector UInt8 4) (pairService : ℕ) : BtM BtRc := do
  let pairChr : Option ℕ ← askBt (.getCharacteristic pairService chrSecureStatus)
  match pairChr with
  | none => return .unsupported
  | some pairChr =>
    let rc : BtRc ← askBt (.read ⟨pairChr, chrSecureStatus⟩)
    if rc ≠ .ok then return .unsupported
    else
      let value : List UInt8 ← askBt (.cachedValue ⟨pairChr, chrSecureStatus⟩ 4)
      if min value.length 4 ≠ 4 then return .noConnection
      else
        let rc : BtRc ← askBt (.write ⟨pairChr, chrSecureStatus⟩ (value.take 3 ++ [0x20]))
        if rc ≠ .ok then return .noConnection
        else
          setProgress 50
          let rc ← sendClientName pairService
          if rc ≠ .ok then return rc
          else
            let _ ← fillProps
            setProgress 55
            subscribeAll 40 subscriptions
            finishConnection token

/-- `fuji_connect_bluetooth` with the service of an older camera. -/
def legacyPairing (token : Vector UInt8 4) (pairService : ℕ) : BtM BtRc := do
  let pairChr : Option ℕ ← askBt (.getCharacteristic pairService chrPair)
  match pairChr with
  | none => return .unsupported
  | some pairChr =>
    let rc : BtRc ← askBt (.write ⟨pairChr, chrPair⟩ token.toList)
    if rc ≠ .ok then return rc
    else
      setProgress 40
      let rc ← sendClientName pairService
      if rc ≠ .ok then return rc
      else
        let _ ← fillProps
        askBt (.unrefService pairService)
        setProgress 50
        let _ ← subscribe notXSvc chrUnknown1Ssid 1
        let _ ← subscribe svcConf chrInd1 1
        let _ ← subscribe svcConf chrInd2 1
        setProgress 60
        let _ ← subscribe svcConf chrNot1 1
        setProgress 70
        let _ ← subscribe svcConf geotagUpdate 1
        setProgress 80
        let _ ← subscribe svcConf chrInd3 1
        finishConnection token

/-- `fuji_connect_bluetooth` with the token of the camera. -/
def connectDevice (saved : Bool) (token : Vector UInt8 4) : BtM BtRc := do
  let rc : BtRc ← askBt .deviceConnect
  if rc ≠ .ok then return rc
  else
    let pairService : Option ℕ ← askBt (.getService svcPair)
    match pairService with
    | some pairService => legacyPairing token pairService
    | none =>
      setProgress 35
      let rc ← createBond saved
      if rc ≠ .ok then return rc
      else
        setProgress 45
        let pairService : Option ℕ ← askBt (.getService svcSecurePair)
        match pairService with
        | none => return .unsupported
        | some pairService => securePairing token pairService

/-- `fuji_connect_bluetooth`; `saved` has the token of a saved connection. -/
def fujiConnectBluetooth (saved : Option (Vector UInt8 4)) : BtM BtRc := do
  askBt .setDeviceCallback
  setProgress 5
  match saved with
  | some auxData => connectDevice true auxData
  | none =>
    let mfgdata : ℕ × Vector UInt8 7 ← askBt .manufacturerData
    if mfgdata.1 = 0 then
      askBt (.addUserInstruction "Device is not in pairing mode")
      return .noConnection
    else connectDevice false (mfgdata.2.drop 3)

/-! ### A camera -/

/-- The module behind `init`. -/
def btInit : BtPriv := ⟨0, .replicate 64 0, false, .replicate 64 0, .replicate 64 0⟩

/-- A camera with every service and characteristic, and one value for all of them. -/
def answering (value : List UInt8) : (op : BtOp) → op.Ret
  | .getService _ | .getCharacteristic _ _ => some 1
  | .setWatching _ _ | .setCccd _ _ | .write _ _ | .read _ | .watch _ _ | .deviceConnect
  | .createBond => BtRc.ok
  | .cachedValue _ _ => value
  | .clientName => ([] : List UInt8)
  | .manufacturerData => ((7, .replicate 7 0) : ℕ × Vector UInt8 7)
  | .getTimestamp => (⟨2024, 1, 1, 0, 0, 0⟩ : Timestamp)
  | .unrefService _ | .unrefCharacteristic _ | .storeBehind _ | .setDeviceCallback
  | .setProgressBar _ _ | .addUserInstruction _ | .addWifiConnection _ _ | .setSessionProperty _ _
  | .saveSessionSignature _ _ | .setScreenSupported => ()

end Fuji
