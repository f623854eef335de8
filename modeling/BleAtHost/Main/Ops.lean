import BleAtHost.Main.Pump

/-!
# Scanning, the operations of the AT commands and the settings

The operations of `main.c` that the AT parser calls, with the scan functions they share with the scan timer,
and the update functions of `settings.c`.
-/

namespace BleAtHost.Main

section
variable (env : Env)

/-! ## `settings.c` -/

def connParamsValid (minInterval maxInterval _latency timeout : Nat) : Bool :=
  if minInterval < 6 ∨ 800 < minInterval then false
  else if maxInterval < 6 ∨ 800 < maxInterval ∨ maxInterval < minInterval then false
  else if timeout = 0 then false
  else true

/-- A `uint16_t` as it lies in memory. -/
def le16 (n : Nat) : List Byte := [UInt8.ofNat (n % 256), UInt8.ofNat (n / 256)]

/-- `settings_save_one`: a failed save leaves the store alone. -/
def settingsSaveOne (s : App) (key : SettingsKey) (value : List Byte) : Int × App :=
  let (err, s) := s.ask env (.settingsSave key value)
  (err, if err = 0 then { s with store := (key, value) :: s.store.filter (·.1 ≠ key) } else s)

/-- Saves in order up to the first failure. -/
def settingsSaveAll (s : App) : List (SettingsKey × List Byte) → Int × App
  | [] => (0, s)
  | (key, value) :: rest =>
      let (err, s) := settingsSaveOne env s key value
      if err ≠ 0 then (err, s) else settingsSaveAll s rest

def bleHostSettingsUpdateProfile (s : App) (serviceUuid notifyUuid writeUuid : Text) : Int × App :=
  match bleHostNormalizeUuid serviceUuid BLE_HOST_UUID_STR_LEN,
    bleHostNormalizeUuid notifyUuid BLE_HOST_UUID_STR_LEN,
    bleHostNormalizeUuid writeUuid BLE_HOST_UUID_STR_LEN with
  | some serviceNorm, some notifyNorm, some writeNorm =>
      let profile : BleProfile :=
        ⟨snprintk BLE_HOST_UUID_STR_LEN serviceNorm, snprintk BLE_HOST_UUID_STR_LEN notifyNorm,
          snprintk BLE_HOST_UUID_STR_LEN writeNorm⟩
      settingsSaveAll env
        { s with
          config := { s.config with activeProfile := profile }
          log := .profile s.config.activeProfile profile s.pm.writeFound :: s.log }
        [(.service, profile.serviceUuid), (.notify, profile.notifyUuid), (.write, profile.writeUuid)]
  | _, _, _ => (-EINVAL, s)

def bleHostSettingsUpdateMtu (s : App) (mtu : Nat) : Int × App :=
  if mtu < 23 ∨ 259 < mtu then (-EINVAL, s)
  else settingsSaveAll env { s with config := { s.config with mtu := mtu } } [(.mtu, le16 mtu)]

def bleHostSettingsUpdateConnParams (s : App) (minInterval maxInterval latency timeout : Nat) : Int × App :=
  if !connParamsValid minInterval maxInterval latency timeout then (-EINVAL, s)
  else
    settingsSaveAll env
      { s with
        config :=
          { s.config with
            connIntervalMin := minInterval
            connIntervalMax := maxInterval
            latency := latency
            timeout := timeout } }
      [(.connMin, le16 minInterval), (.connMax, le16 maxInterval), (.latency, le16 latency),
        (.timeout, le16 timeout)]

/-! ## Scanning -/

def ScannedDeviceEntry.zero : ScannedDeviceEntry := ⟨false, 0, ⟨[], 0⟩, [], [], 0⟩

def clearScanCache (s : App) : App :=
  { s with scannedDevices := List.replicate MAX_SCANNED_DEVICES .zero, nextScanIndex := 0 }

/-- The value bytes of the first name field of an advertising payload, `BT_DATA_NAME_SHORTENED` or
`BT_DATA_NAME_COMPLETE`, among the well-formed fields before the first malformed or empty one. -/
def findDeviceName : Nat → List Byte → List Byte
  | 0, _ => []
  | fields + 1, ad =>
      match ad with
      | fieldLen :: rest =>
          -- the loop condition `ad->len > 1`
          if rest = [] then []
          else if fieldLen.toNat = 0 ∨ rest.length < fieldLen.toNat then []
          else
            match rest with
            | [] => []
            | fieldType :: value =>
                if fieldType = 9 ∨ fieldType = 8 then value.take (fieldLen.toNat - 1)
                else findDeviceName fields (value.drop (fieldLen.toNat - 1))
      | [] => []

/-- `parse_device_name`: the name buffer as the C string it holds. -/
def parseDeviceName (ad : List Byte) (nameLen : Nat) : Text :=
  cString ((findDeviceName ad.length ad).take (nameLen - 1))

def findScanEntry (s : App) (addr : BtAddrLe) : Option Nat :=
  s.scannedDevices.findIdx? fun entry => entry.valid && entry.addr == addr

def matchesScanFilter (s : App) (name : Text) : Bool :=
  if s.scanFilterName = [] then true
  else if name.length < s.scanFilterName.length then false
  else name.take s.scanFilterName.length == s.scanFilterName

def stopScanInternal (s : App) (emitComplete : Bool) : Int × App :=
  if s.appState ≠ .scanning then (0, s)
  else
    let s := { s with scanStopWork := none }
    let (err, s) := s.ask env .scanStop
    if err ≠ 0 ∧ err ≠ -EALREADY then (err, s)
    else
      let s := setState s s.restState
      (0, if emitComplete then atHostNotifyScanComplete s else s)

def scanStopWorkHandler (s : App) : App := (stopScanInternal env s true).2

/-- `BT_GAP_ADV_TYPE_ADV_IND`, `_ADV_DIRECT_IND`, `_SCAN_RSP` and `_EXT_ADV`. -/
def isReportedAdvType (type : Nat) : Bool := type == 0 || type == 1 || type == 4 || type == 5

def deviceFound (s : App) (addr : BtAddrLe) (rssi : Int) (type : Nat) (ad : List Byte) : App :=
  if s.appState ≠ .scanning then s
  else if !isReportedAdvType type then s
  else
    let name := parseDeviceName ad BLE_HOST_NAME_MAX_LEN
    if !matchesScanFilter s name then s
    else
      match findScanEntry s addr with
      | some i =>
          { s with scannedDevices := s.scannedDevices.modify i fun entry => { entry with rssi := rssi } }
      | none =>
          match s.scannedDevices.findIdx? fun entry => !entry.valid with
          | none => s
          | some i =>
              let entry : ScannedDeviceEntry :=
                ⟨true, s.nextScanIndex, addr, env.btAddrToStr addr.val,
                  snprintk BLE_HOST_NAME_MAX_LEN name, rssi⟩
              let s :=
                { s with
                  scannedDevices := s.scannedDevices.set i entry
                  nextScanIndex := (s.nextScanIndex + 1) % 256 }
              atHostNotifyScanResult s entry.index entry.mac entry.name (bleHostAddrTypeToWlt addr.type) rssi

/-! ## The operations of the AT commands -/

/-- `sscanf(text, "%2x", &value)`: white space, then at most two characters of sign and digits. -/
def sscanf2x (text : Text) : Option Nat :=
  let field := (text.dropWhile isSpace).take 2
  let negative := field.head? == some 45
  let digits := (if negative || field.head? == some 43 then field.tail else field).takeWhile isXDigit
  if digits = [] then none
  else
    let value := digits.foldl (fun acc ch => acc * 16 + hexValue ch) 0
    some (if negative then (2 ^ 32 - value) % 2 ^ 32 else value)

/-- `parse_connect_mac`: the bytes of the address, the least significant first. -/
def parseConnectMac (text : Text) : Option (List Byte) :=
  if text.length = 14 ∧ text.head? = some 48 ∧ (text[1]? = some 120 ∨ text[1]? = some 88) then
    match (List.range 6).mapM fun i => sscanf2x (text.drop (2 + i * 2)) with
    | some values => some (values.map UInt8.ofNat).reverse
    | none => none
  else env.btAddrFromStr text

def opStartScan (s : App) (durationS : Nat) (filterName : Option Text) : Int × App :=
  if s.currentConn.isSome then (-EALREADY, s)
  else if s.appState = .connecting ∨ s.appState = .disconnecting then (-EBUSY, s)
  else if s.appState = .scanning then (0, s)
  else
    let s := clearScanCache s
    let s := { s with scanFilterName := snprintk BLE_HOST_SCAN_FILTER_MAX_LEN (filterName.getD []) }
    let (err, s) := s.ask env .scanStart
    if err ≠ 0 then (err, s)
    else (0, { setState s .scanning with scanStopWork := s.scanStopWork.or (some durationS) })

/-- The part of `op_connect` after its checks. -/
def createConnection (s : App) (peer : BtAddrLe) : Int × App :=
  let conn : Conn := ⟨s.conns, peer⟩
  let (err, s) := s.ask env
    (.connCreate conn s.config.connIntervalMin s.config.connIntervalMax s.config.latency s.config.timeout)
  if err ≠ 0 then (err, { s with currentConn := none })
  else
    (0, { setState s .connecting with currentConn := some conn, conns := s.conns + 1, link := .creating conn })

def opConnect (s : App) (mac : Text) (addrType : Nat) : Int × App :=
  if s.currentConn.isSome then (-EALREADY, s)
  else if s.appState = .connecting ∨ s.appState = .disconnecting then (-EBUSY, s)
  else
    match bleHostAddrTypeFromWlt addrType with
    | none => (-EINVAL, s)
    | some btAddrType =>
        match parseConnectMac env mac with
        | none => (-EINVAL, s)
        | some val =>
            if s.appState = .scanning then
              let (err, s) := stopScanInternal env s false
              if err ≠ 0 then (err, s) else createConnection env s ⟨val, btAddrType⟩
            else createConnection env s ⟨val, btAddrType⟩

def opDisconnect (s : App) (connIndex : Nat) : Int × App :=
  if connIndex ≠ 0 then (-EINVAL, s)
  else
    match s.currentConn with
    | none => (0, s)
    | some conn => (setState s .disconnecting).ask env (.connDisconnect conn)

def opSendPayload (s : App) (connIndex : Nat) (data : List Byte) : Int × App :=
  if connIndex ≠ 0 then (-EINVAL, s) else profileManagerSend env s data

def opGetStatus (s : App) : BleHostStatus × App :=
  match s.currentConn with
  | none => (⟨false, false, [], 0, 0⟩, s)
  | some conn => (⟨true, s.pm.ready, env.btAddrToStr conn.dst.val, 1, s.pm.payloadLen⟩, s)

def opGetProfile (s : App) : BleProfile × App := (s.config.activeProfile, s)

def opSetProfile (s : App) (serviceUuid notifyUuid writeUuid : Text) : Int × App :=
  let (err, s) := bleHostSettingsUpdateProfile env s serviceUuid notifyUuid writeUuid
  if err ≠ 0 then (err, s) else (0, profileManagerSetConfig s)

def opSetMtu (s : App) (mtu : Nat) : Int × App :=
  let (err, s) := bleHostSettingsUpdateMtu env s mtu
  if err ≠ 0 then (err, s) else (0, profileManagerSetConfig s)

def opGetMtu (s : App) : Nat × App := (s.config.mtu, s)

def opRequestMtu (s : App) (connIndex : Nat) : Int × App :=
  if connIndex ≠ 0 then (-EINVAL, s) else profileManagerRequestMtu env s

def opSetConnParams (s : App) (connIndex minInterval maxInterval latency timeout : Nat) : Int × App :=
  if connIndex ≠ 0 then (-EINVAL, s)
  else
    match s.currentConn with
    | none => (-ENOTCONN, s)
    | some conn =>
        let (err, s) := s.ask env (.connParamUpdate conn minInterval maxInterval latency timeout)
        if err ≠ 0 then (err, s)
        else bleHostSettingsUpdateConnParams env s minInterval maxInterval latency timeout

def opEnterDataMode (s : App) (connIndex : Nat) : Int × App :=
  if connIndex ≠ 0 then (-EINVAL, s)
  else if s.currentConn = none ∨ !s.config.allowDataMode then (-ENOTSUP, s)
  else if s.appState = .dataMode ∨ s.dataModePendingEnter then (-EALREADY, s)
  else if !profileManagerCanEnterDataMode s.pm then (-EACCES, s)
  else (0, { s with dataModePendingEnter := true, log := .enterAccepted :: s.log })

def opGetStreamStats (s : App) : BleStreamStats × App := (s.streamStats, s)

/-- The table `at_ops`. -/
def atOps : AtHost.Ops App where
  startScan := opStartScan env
  connect := opConnect env
  disconnect := opDisconnect env
  sendPayload := opSendPayload env
  getStatus := opGetStatus env
  getProfile := opGetProfile
  setProfile := opSetProfile env
  setMtu := opSetMtu env
  getMtu := opGetMtu
  requestMtu := opRequestMtu env
  setConnParams := opSetConnParams env
  enterDataMode := opEnterDataMode
  getStreamStats := opGetStreamStats

end

/-- The table `at_tx`. -/
def atTx : AtHost.Tx App where
  line := queueCtrlLine
  raw := queueCtrlBytes

end BleAtHost.Main
