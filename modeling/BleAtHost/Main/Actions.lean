import BleAtHost.Main.Log
import BleAtHost.Main.System

/-!
# Actions

The handlers of the firmware taken apart. An action is the smallest change that the invariants need to see, with
the part of the guards of its handler that they rest on. Every handler is a sequence of actions.
-/

namespace BleAtHost.Main

/-! ## Parts of handlers -/

/-- What `profile_manager_reset` leaves of the state. -/
def ProfileManagerState.cleared (pm : ProfileManagerState) : ProfileManagerState :=
  { pm with
    serviceDiscoverParams := .zero
    characteristicDiscoverParams := .zero
    serviceStartHandle := 0
    serviceEndHandle := 0
    notifyValueHandle := 0
    writeValueHandle := 0
    writeProperties := 0
    ready := false
    serviceFound := false
    notifyFound := false
    writeFound := false
    exchangeInProgress := false
    exchangeParams := false
    writeInProgress := false
    writeParams := ⟨0, 0⟩
    pendingWriteLen := 0 }

/-- What decides where a payload is written, and whether; there is always room for a byte of it. -/
structure ProfileManagerState.SameRoute (pm pm' : ProfileManagerState) : Prop where
  conn : pm'.conn = pm.conn
  ready : pm'.ready = pm.ready
  notifyFound : pm'.notifyFound = pm.notifyFound
  writeFound : pm'.writeFound = pm.writeFound
  writeValueHandle : pm'.writeValueHandle = pm.writeValueHandle
  writeProperties : pm'.writeProperties = pm.writeProperties
  payloadLen : 0 < pm.payloadLen → 0 < pm'.payloadLen

/-- `profile_ready` with the flag that is set before it, up to its line. -/
def announceReady (s : App) : App :=
  let s := { s with pm := { s.pm with ready := true }, log := .callback .ready :: s.log }
  if s.appState ≠ .dataMode ∧ !s.dataModePendingEnter then setState s .controlReady else s

/-- `disconnected` up to its line. -/
def closeConnection (env : Env) (s : App) (conn : Conn) (reason : Nat) : App :=
  let s := { s with link := .down }
  let s :=
    if reason ≠ REMOTE_USER_TERM_CONN then
      { s with
        streamStats :=
          { s.streamStats with
            unexpectedDisconnectCount := addU32 s.streamStats.unexpectedDisconnectCount 1 } }
    else s
  let s :=
    if s.currentConn = some conn then
      let s := profileManagerHandleDisconnected env s conn
      { s with currentConn := none, log := .connUnref conn :: s.log }
    else s
  let s := { s with hostToBleRing := .empty, log := .h2bReset :: .disconnected reason :: s.log }
  setState (clearDataModeSession s false) .idle

/-- `profile_payload_received` before it passes the payload on. -/
def countPayload (s : App) (data : List Byte) : App :=
  { s with
    streamStats :=
      { s.streamStats with
        notifyOps := addU32 s.streamStats.notifyOps 1
        bytesBleToHost := addU32 s.streamStats.bytesBleToHost data.length }
    log := .notify data :: s.log }

/-- `ble_host_settings_update_profile` before it saves. -/
def replaceProfile (s : App) (profile : BleProfile) : App :=
  { s with
    config := { s.config with activeProfile := profile }
    log := .profile s.config.activeProfile profile s.pm.writeFound :: s.log }

/-- In data mode the control queue may grow only after a callback. -/
def MayQueue (s : App) : Prop := s.appState = .dataMode → ∃ kind, Obs.callback kind ∈ session s.log

/-- Calls that come with no change of the state and that nothing depends on. -/
def StackCall.Plain : StackCall → Prop
  | .scanStart | .connParamUpdate _ _ _ _ _ | .dataLenUpdate _ | .phyUpdate _ | .gattDiscover _ _ _ _
  | .gattUnsubscribe _ | .gattExchangeMtu _ => True
  | _ => False

/-- What the stack says of the subscription, of the database of the peer and of the connection, and the guard timer
of the escape sequence. -/
inductive StackReport where
  | subscription (ready : Bool)
  | characteristic (chrc : GattChrc)
  | lost
  | guardTimer

/-! ## Control -/

section
variable (env : Env) (report : App → StackReport → Prop)

/-- Changes by the commands, by the callbacks of the stack and by the scan timer. `report` tells what
the stack may report. -/
inductive Act : App → App → Prop
  -- output
  | line {s : App} (text : Text) (h : MayQueue s) : Act s (queueCtrlLine s text)
  | raw {s : App} (data : List Byte) (h : s.appState ≠ .dataMode) : Act s (queueCtrlBytes s data)
  | payloadInData {s : App} (data : List Byte) (h : s.appState = .dataMode) :
      Act s (queueDataBytes (countPayload s data) data)
  | payload {s : App} (data : List Byte) (h : s.appState ≠ .dataMode) : Act s (countPayload s data)
  | callback {s : App} (kind : Callback) : Act s (s.note (.callback kind))
  | kick {s : App} : Act s (kickUartTx s)
  | lineState {s : App} (dtr : Bool) : Act s (usbMessageCb s dtr)
  -- calls
  | ask {s : App} (call : StackCall) (h : call.Plain) : Act s (s.ask env call).2
  | subscribe {s : App} (hn : s.pm.notifyFound) (hw : s.pm.writeFound) :
      Act s (s.ask env (.gattSubscribe s.pm.conn s.pm.notifyValueHandle)).2
  | write {s : App} (conn : Conn) (data : List Byte) (hc : s.pm.conn = some conn) (hr : s.pm.ready)
      (hw : s.pm.writeFound) : Act s (s.ask env (.gattWrite conn s.pm.writeValueHandle data)).2
  | writeWithoutResponse {s : App} (conn : Conn) (data : List Byte) (hc : s.pm.conn = some conn) (hr : s.pm.ready)
      (hw : s.pm.writeFound) : Act s (s.ask env (.gattWriteWithoutResponse conn s.pm.writeValueHandle data)).2
  -- the profile manager
  | manager {s : App} (pm : ProfileManagerState) (h : s.pm.SameRoute pm) : Act s { s with pm := pm }
  | found {s : App} (chrc : GattChrc) (conn : Conn) (h : s.link = .up conn) (hr : report s (.characteristic chrc)) :
      Act s { s with pm := matchCharacteristic s.config.activeProfile s.pm chrc }
  | readyFound {s : App} (conn : Conn) (h : s.link = .up conn) (hn : s.pm.notifyFound) (hw : s.pm.writeFound) :
      Act s (announceReady s)
  | subscribed {s : App} (conn : Conn) (h : s.link = .up conn) (hr : report s (.subscription true)) : Act s (announceReady s)
  | unsubscribed {s : App} (conn : Conn) (h : s.link = .up conn) (hr : report s (.subscription false)) :
      Act s { s with pm := { s.pm with ready := false } }
  -- the application state
  | errorState {s : App} (hc : s.currentConn.isSome) (hm : s.appState ≠ .dataMode) : Act s (setState s .controlReady)
  | disconnecting {s : App} (conn : Conn) (hc : s.currentConn = some conn) (hm : s.appState ≠ .dataMode) :
      Act s ((setState s .disconnecting).ask env (.connDisconnect conn)).2
  | enterAccepted {s : App} (text : Text) (he : profileManagerCanEnterDataMode s.pm) (hc : s.currentConn ≠ none)
      (hm : s.appState ≠ .dataMode) (hp : s.dataModePendingEnter = false) :
      Act s (queueCtrlLine { s with dataModePendingEnter := true, log := .enterAccepted :: s.log } text)
  -- scanning
  | cache {s : App} (devices : List ScannedDeviceEntry) (index : Nat) (filter : Text) :
      Act s { s with scannedDevices := devices, nextScanIndex := index, scanFilterName := filter }
  | scanning {s : App} (durationS : Nat) (hc : s.currentConn = none) (hm : s.appState ≠ .dataMode) :
      Act s { setState s .scanning with scanStopWork := s.scanStopWork.or (some durationS) }
  | scanTimer {s : App} (h : s.appState ≠ .scanning) : Act s { s with scanStopWork := none }
  | scanStopped {s : App} (h : s.appState = .scanning) (hr : env.answer s.calls = 0 ∨ env.answer s.calls = -EALREADY) :
      Act s (setState ({ s with scanStopWork := none }.ask env .scanStop).2 s.restState)
  | scanStuck {s : App} (h : s.appState = .scanning)
      (hr : ¬(env.answer s.calls = 0 ∨ env.answer s.calls = -EALREADY)) :
      Act s ({ s with scanStopWork := none }.ask env .scanStop).2
  -- the connection
  | create {s : App} (peer : BtAddrLe) (hc : s.currentConn = none) : Act s (createConnection env s peer).2
  | connectFailed {s : App} (err : Nat) (conn : Conn) (h : s.link = .creating conn) (hc : s.currentConn = some conn)
      (he : err ≠ 0) :
      Act s
        { s with
          link := .down
          currentConn := none
          appState := .idle
          log := .connUnref conn :: .connected err :: s.log }
  | opened {s : App} (conn : Conn) (h : s.link = .creating conn) (hm : s.appState ≠ .dataMode) :
      Act s
        { s with
          link := .up conn
          appState := .connecting
          pm := { s.pm.cleared with conn := some conn }
          log := .connected 0 :: s.log }
  | closed {s : App} (conn : Conn) (reason : Nat) (h : s.link = .up conn) (hc : s.currentConn = some conn)
      (hpc : s.pm.conn = some conn) (hr : report s .lost) : Act s (closeConnection env s conn reason)
  | flow {s : App} : Act s (refreshUartRxFlowControl s)
  | attMtu {s : App} (mtu : Nat) : Act s { s with attMtu := mtu }
  -- settings
  | profile {s : App} (profile : BleProfile) : Act s (replaceProfile s profile)
  | config {s : App} (mtu minInterval maxInterval latency timeout : Nat) :
      Act s
        { s with
          config :=
            { s.config with
              mtu := mtu
              connIntervalMin := minInterval
              connIntervalMax := maxInterval
              latency := latency
              timeout := timeout } }
  | saved {s : App} (key : SettingsKey) (value : List Byte) : Act s (settingsSaveOne env s key value).2

end

/-! ## Data -/

/-- Observations of the data path. -/
def Obs.Streamed : Obs → Prop
  | .uptime _ | .atRx _ | .dataRx _ _ _ | .rx _ _ _ | .guard _ | .h2bPut _ _ | .write _ _ _ => True
  | _ => False

/-- What the receiver, the guard timer and the write pump change. -/
def Streamed (s s' : App) : Prop :=
  ∃ toBle work retry coalesce guard stats paused rxIrq flushDue escape last new, (∀ o ∈ new, Obs.Streamed o) ∧
    s' =
      { s with
        hostToBleRing := toBle
        bleWriteWork := work
        bleWriteRetryWork := retry
        bleWriteCoalesceWork := coalesce
        escapeGuardWork := guard
        streamStats := stats
        controlRxPaused := paused
        rxIrqEnabled := rxIrq
        dataModeTxFlushDue := flushDue
        escapeState := escape
        lastHostRxTimeMs := last
        log := new ++ s.log }

/-- The way out of data mode, up to its line. -/
def leaveDataMode (s : App) (now : Int) : App :=
  clearDataModeSession ((s.note (.uptime now)).note (.exit now s.hostToBleRing.data)) true

/-- Every change but those of the transmit service. -/
inductive Move (env : Env) (report : App → StackReport → Prop) : App → App → Prop
  | act {s s' : App} (h : Act env report s s') : Move env report s s'
  | stream {s s' : App} (h : Streamed s s') : Move env report s s'
  | left {s : App} (now : Int) (h : s.appState = .dataMode) (hr : report s .guardTimer) :
      Move env report s (leaveDataMode s now)

/-- `activate_pending_data_mode_if_ready` once its conditions hold, up to the flow control. -/
def enterDataModeNow (s : App) (now : Int) : App :=
  { s with
    dataModePendingEnter := false
    dataModeTxFlushDue := false
    escapeState := ⟨false, 0⟩
    bleWriteRetryWork := false
    bleWriteCoalesceWork := false
    lastHostRxTimeMs := now
    streamStats :=
      { s.streamStats with enterDataModeCount := addU32 s.streamStats.enterDataModeCount 1 }
    appState := .dataMode
    log := .enter now s.hostToBleRing.data :: .uptime now :: s.log }

/-- The changes of the transmit service. -/
inductive Serve : App → App → Prop
  | entered {s : App} (now : Int) (hp : s.dataModePendingEnter) (hm : s.appState ≠ .dataMode)
      (hc : s.currentConn ≠ none) (hz : s.ctrlTxRing.sizeGet = 0) : Serve s (enterDataModeNow s now)
  | flow {s : App} : Serve s (refreshUartRxFlowControl s)
  | drained {s : App} (ctrl : RingBuf Byte CTRL_TX_RING_SIZE) (toHost : RingBuf Byte BLE_TO_HOST_RING_SIZE)
      (irq fromCtrl : Bool) (sent : List Byte) :
      Serve s
        { s with
          ctrlTxRing := ctrl
          bleToHostRing := toHost
          txIrqEnabled := irq
          log := .fill fromCtrl sent :: s.log }
  | stopped {s : App} : Serve s { s with txIrqEnabled := false }

/-! ## Events -/

/-- Work items of the data path. -/
def Event.IsStream : Event → Prop
  | .bleWriteWork | .bleWriteRetryWork | .bleWriteCoalesceWork | .escapeGuardWork _ => True
  | _ => False

/-- The stack may report anything. -/
def anyReport : App → StackReport → Prop := fun _ _ => True

def Event.report : Event → Option StackReport
  | .subscribe err => some (.subscription (err = 0))
  | .notify none => some (.subscription false)
  | .characteristicDiscover (some chrc) => some (.characteristic chrc)
  | .disconnected _ => some .lost
  | .escapeGuardWork _ => some .guardTimer
  | _ => none

/-- What the stack reports of the subscription. -/
def Event.subscription (e : Event) : Option Bool :=
  match e.report with
  | some (.subscription ready) => some ready
  | _ => none

end BleAtHost.Main
