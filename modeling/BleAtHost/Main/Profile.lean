import BleAtHost.Main.Stream

/-!
# The profile manager

`profile_manager.c` with the callbacks that `main.c` registers in it. The callbacks come first because the
profile manager reaches them through its table. The calls into the stack take the environment.
-/

namespace BleAtHost.Main

/-! ## The callbacks of `main.c` -/

def profileReady (s : App) : App :=
  let s := s.note (.callback .ready)
  let s := if s.appState ≠ .dataMode ∧ !s.dataModePendingEnter then setState s .controlReady else s
  atHostNotifyReady s

def profilePayloadReceived (s : App) (data : List Byte) : App :=
  let s :=
    { s with
      streamStats :=
        { s.streamStats with
          notifyOps := addU32 s.streamStats.notifyOps 1
          bytesBleToHost := addU32 s.streamStats.bytesBleToHost data.length }
      log := .notify data :: s.log }
  if s.appState = .dataMode then queueDataBytes s data else atHostNotifyReceive s data

def profileMtuUpdated (s : App) (payloadLen : Nat) : App :=
  atHostNotifyMtu (s.note (.callback .mtuUpdated)) payloadLen

def profileError (s : App) : App :=
  let s := s.note (.callback .error)
  let s := if s.currentConn.isSome ∧ s.appState ≠ .dataMode then setState s .controlReady else s
  atHostNotifyFunctionError s

/-! ## The profile manager -/

def BT_GATT_DISCOVER_PRIMARY : Nat := 0
def BT_GATT_DISCOVER_CHARACTERISTIC : Nat := 3
def BT_ATT_FIRST_ATTRIBUTE_HANDLE : Nat := 1
def BT_ATT_LAST_ATTRIBUTE_HANDLE : Nat := 65535

def updatePayloadLen (s : App) : App :=
  let attMtu := if s.pm.conn.isSome then s.attMtu else 23
  let preferred := if s.config.mtu < 23 then 23 else s.config.mtu
  let attMtu := min attMtu preferred
  { s with pm := { s.pm with payloadLen := if 3 < attMtu then attMtu - 3 else 20 } }

/-- `notify_handler`; `none` stands for the end of the subscription. -/
def notifyHandler (s : App) (data : Option (List Byte)) : App :=
  match data with
  | none => { s with pm := { s.pm with ready := false } }
  | some data => profilePayloadReceived s data

def subscribeHandler (s : App) (err : Nat) : App :=
  if err ≠ 0 then profileError { s with pm := { s.pm with ready := false } }
  else profileReady { s with pm := { s.pm with ready := true } }

section
variable (env : Env)

def subscribeNotifyCharacteristic (s : App) : Int × App :=
  let (err, s) := s.ask env (.gattSubscribe s.pm.conn s.pm.notifyValueHandle)
  if err ≠ 0 then (err, profileError s) else (0, s)

/-- What a characteristic declaration gives. -/
structure GattChrc where
  uuid : BtUuid
  valueHandle : Nat
  properties : Nat
deriving DecidableEq, Repr

/-- The two comparisons of `characteristic_discover_cb`. -/
def matchCharacteristic (profile : BleProfile) (pm : ProfileManagerState) (chrc : GattChrc) :
    ProfileManagerState :=
  let uuidText := bleHostFormatUuidFromBt chrc.uuid BLE_HOST_UUID_STR_LEN
  let pm :=
    if !pm.notifyFound && bleHostUuidEquals uuidText profile.notifyUuid then
      { pm with notifyFound := true, notifyValueHandle := chrc.valueHandle }
    else pm
  if !pm.writeFound && bleHostUuidEquals uuidText profile.writeUuid then
    { pm with writeFound := true, writeValueHandle := chrc.valueHandle, writeProperties := chrc.properties }
  else pm

def characteristicDiscoverCb (s : App) (attr : Option GattChrc) : App :=
  match attr with
  | none =>
      if !s.pm.notifyFound then profileError s
      else if !s.pm.writeFound then profileError s
      else if s.config.autoSubscribe then (subscribeNotifyCharacteristic env s).2
      else profileReady { s with pm := { s.pm with ready := true } }
  | some chrc =>
      if s.pm.characteristicDiscoverParams.type ≠ BT_GATT_DISCOVER_CHARACTERISTIC then profileError s
      else { s with pm := matchCharacteristic s.config.activeProfile s.pm chrc }

def startCharacteristicDiscovery (s : App) : Int × App :=
  let params : DiscoverParams :=
    ⟨s.pm.serviceStartHandle, s.pm.serviceEndHandle, BT_GATT_DISCOVER_CHARACTERISTIC⟩
  let s := { s with pm := { s.pm with characteristicDiscoverParams := params } }
  let (err, s) := s.ask env (.gattDiscover s.pm.conn params.startHandle params.endHandle params.type)
  if err ≠ 0 then (err, profileError s) else (err, s)

/-- What a primary service declaration gives. -/
structure GattService where
  uuid : BtUuid
  handle : Nat
  endHandle : Nat
deriving DecidableEq, Repr

def serviceDiscoverCb (s : App) (attr : Option GattService) : App :=
  match attr with
  | none => if !s.pm.serviceFound then profileError s else (startCharacteristicDiscovery env s).2
  | some service =>
      if s.pm.serviceDiscoverParams.type ≠ BT_GATT_DISCOVER_PRIMARY then profileError s
      else
        let uuidText := bleHostFormatUuidFromBt service.uuid BLE_HOST_UUID_STR_LEN
        if bleHostUuidEquals uuidText s.config.activeProfile.serviceUuid then
          { s with
            pm :=
              { s.pm with
                serviceFound := true
                serviceStartHandle := service.handle
                serviceEndHandle := service.endHandle } }
        else s

def exchangeHandler (s : App) (err : Nat) : App :=
  let s := { s with pm := { s.pm with exchangeInProgress := false } }
  let s :=
    if err = 0 then
      let s := updatePayloadLen s
      profileMtuUpdated s s.pm.payloadLen
    else s
  { s with pm := { s.pm with exchangeParams := false } }

def writeHandler (s : App) (err : Nat) : App :=
  let s := { s with pm := { s.pm with writeInProgress := false } }
  if err ≠ 0 then profileError s else s

def profileManagerSetConfig (s : App) : App := updatePayloadLen s

def profileManagerReset (s : App) : App :=
  let s :=
    match s.pm.conn with
    | none => s
    | some conn => (s.ask env (.gattUnsubscribe conn)).2
  updatePayloadLen
    { s with
      pm :=
        { s.pm with
          serviceDiscoverParams := .zero
          characteristicDiscoverParams := .zero
          serviceStartHandle := 0
          serviceEndHandle := 0
          notifyValueHandle := 0
          writeValueHandle := 0
          writeProperties := 0
          ready := false
          serviceFound := false
          notifyFound := false
          writeFound := false
          exchangeInProgress := false
          exchangeParams := false
          writeInProgress := false
          writeParams := ⟨0, 0⟩
          pendingWriteLen := 0 } }

def profileManagerStart (s : App) (conn : Conn) : Int × App :=
  let s := profileManagerReset env s
  let s := updatePayloadLen { s with pm := { s.pm with conn := some conn } }
  let params : DiscoverParams :=
    ⟨BT_ATT_FIRST_ATTRIBUTE_HANDLE, BT_ATT_LAST_ATTRIBUTE_HANDLE, BT_GATT_DISCOVER_PRIMARY⟩
  let s := { s with pm := { s.pm with serviceDiscoverParams := params } }
  let (err, s) := s.ask env (.gattDiscover (some conn) params.startHandle params.endHandle params.type)
  if err ≠ 0 then (err, profileError s) else (err, s)

def profileManagerHandleDisconnected (s : App) (conn : Conn) : App :=
  if s.pm.conn = some conn then
    let s := profileManagerReset env s
    { s with pm := { s.pm with conn := none } }
  else s

def profileManagerRequestMtu (s : App) : Int × App :=
  match s.pm.conn with
  | none => (-ENOTCONN, s)
  | some conn =>
      if s.pm.exchangeInProgress then (-EBUSY, s)
      else
        let s := { s with pm := { s.pm with exchangeInProgress := true, exchangeParams := true } }
        let (err, s) := s.ask env (.gattExchangeMtu conn)
        let ended := { s with pm := { s.pm with exchangeInProgress := false, exchangeParams := false } }
        if err = -EALREADY then
          let s := updatePayloadLen ended
          (0, profileMtuUpdated s s.pm.payloadLen)
        else if err ≠ 0 then (err, ended)
        else (0, s)

/-- `CONFIG_BT_USER_DATA_LEN_UPDATE` is set in `prj.conf`. -/
def profileManagerRequestDataLen (s : App) : Int × App :=
  match s.pm.conn with
  | none => (-ENOTCONN, s)
  | some conn => s.ask env (.dataLenUpdate conn)

/-- `CONFIG_BT_USER_PHY_UPDATE` is set in `prj.conf`. -/
def profileManagerRequestPhy (s : App) : Int × App :=
  match s.pm.conn with
  | none => (-ENOTCONN, s)
  | some conn => s.ask env (.phyUpdate conn)

def profileManagerSend (s : App) (data : List Byte) : Int × App :=
  match s.pm.conn with
  | none => (-ENOTCONN, s)
  | some conn =>
      if !s.pm.ready || !s.pm.writeFound || s.pm.writeValueHandle = 0 then (-EAGAIN, s)
      else if data.length = 0 ∨ BLE_HOST_SEND_MAX_LEN < data.length ∨ s.pm.payloadLen < data.length then
        (-EMSGSIZE, s)
      else if s.pm.writeProperties &&& CHRC_WRITE_WITHOUT_RESP ≠ 0 then
        s.ask env (.gattWriteWithoutResponse conn s.pm.writeValueHandle data)
      else if s.pm.writeProperties &&& CHRC_WRITE = 0 || s.pm.writeInProgress then (-EACCES, s)
      else
        let s :=
          { s with
            pm :=
              { s.pm with
                pendingWrite := data
                pendingWriteLen := data.length
                writeParams := ⟨s.pm.writeValueHandle, data.length⟩
                writeInProgress := true } }
        let (err, s) := s.ask env (.gattWrite conn s.pm.writeValueHandle data)
        (err, if err ≠ 0 then { s with pm := { s.pm with writeInProgress := false } } else s)

end

end BleAtHost.Main
