import BleAtHost.Lib.RingBuf
import BleAtHost.Lib.Detector
import BleAtHost.AtHost.Command

/-!
# The application state

The static variables of `main.c`, `profile_manager.c` and `settings.c`, the enable bits of the UART interrupts
and what the firmware can ask of the Bluetooth stack. Locks are left out: every handler runs to its end before
the next one starts. `log` is a history variable, the newest observation first; no function reads it.
-/

namespace BleAtHost.Main

def CONTROL_UART_RX_CHUNK : Nat := 64
def HOST_TO_BLE_RING_SIZE : Nat := 16384
def BLE_TO_HOST_RING_SIZE : Nat := 16384
def CTRL_TX_RING_SIZE : Nat := 2048
def UART_TX_CHUNK : Nat := 128
def MAX_SCANNED_DEVICES : Nat := 32

inductive AppState where
  | idle
  | scanning
  | connecting
  | controlReady
  | dataMode
  | disconnecting
deriving DecidableEq, Repr

/-- A `struct bt_conn`: its identity and the address of the peer. -/
structure Conn where
  id : Nat
  dst : BtAddrLe
deriving DecidableEq, Repr

structure ScannedDeviceEntry where
  valid : Bool
  index : Nat
  addr : BtAddrLe
  mac : Text
  name : Text
  rssi : Int
deriving DecidableEq, Repr

structure DataModeEscapeState where
  active : Bool
  count : Nat
deriving DecidableEq, Repr

/-- The number of held-back pluses. -/
def DataModeEscapeState.held (e : DataModeEscapeState) : Nat := if e.active then e.count else 0

/-- A byte from the UART with the readings of `k_uptime_get` that its handling may make: one when the byte is
taken up, and one when held-back pluses are flushed because of it. -/
structure RxByte where
  ch : Byte
  now : Int
  flushNow : Int
deriving DecidableEq, Repr

/-! ## The Bluetooth stack and the settings store -/

/-- The keys under which `settings.c` saves. -/
inductive SettingsKey where
  | service
  | notify
  | write
  | mtu
  | connMin
  | connMax
  | latency
  | timeout
deriving DecidableEq, Repr

/-- The calls into the stack and the settings subsystem whose result the firmware cannot foresee. -/
inductive StackCall where
  | scanStart
  | scanStop
  | connCreate (conn : Conn) (minInterval maxInterval latency timeout : Nat)
  | connDisconnect (conn : Conn)
  | connParamUpdate (conn : Conn) (minInterval maxInterval latency timeout : Nat)
  | dataLenUpdate (conn : Conn)
  | phyUpdate (conn : Conn)
  | gattDiscover (conn : Option Conn) (startHandle endHandle type : Nat)
  | gattSubscribe (conn : Option Conn) (valueHandle : Nat)
  | gattUnsubscribe (conn : Conn)
  | gattExchangeMtu (conn : Conn)
  | gattWriteWithoutResponse (conn : Conn) (handle : Nat) (data : List Byte)
  | gattWrite (conn : Conn) (handle : Nat) (data : List Byte)
  | settingsSave (key : SettingsKey) (value : List Byte)
deriving DecidableEq, Repr

/-- What lies outside the repository: the answers of the stack in the order in which they are asked for, and
the two address functions. -/
structure Env where
  answer : Nat → Int
  btAddrFromStr : Text → Option (List Byte)
  btAddrToStr : List Byte → Text

/-- How far the stack has come with the one connection. -/
inductive Link where
  | down
  | creating (conn : Conn)
  | up (conn : Conn)
deriving DecidableEq, Repr

/-! ## Observations -/

inductive Callback where
  | ready
  | mtuUpdated
  | error
  | linkParams
deriving DecidableEq, Repr

inductive Obs where
  /-- A reading of `k_uptime_get`. -/
  | uptime (now : Int)
  | stack (call : StackCall) (result : Int)
  /-- Bytes read by the interrupt handler and passed to `at_host_rx_bytes`. -/
  | atRx (bytes : List Byte)
  /-- Bytes read and passed to `handle_data_mode_rx`, the room in the ring and the pluses held back. -/
  | dataRx (bytes : List Byte) (space held : Nat)
  /-- A byte taken up by `handle_data_mode_rx`, with the number of pluses held back before it and
  `last_host_rx_time_ms` before it. -/
  | rx (b : RxByte) (held : Nat) (last : Int)
  /-- `escape_guard_work_handler` waits on or flushes. -/
  | guard (now : Int)
  | h2bPut (offered stored : List Byte)
  | h2bReset
  /-- A chunk given to `profile_manager_send`, the result, how far the claimed head was ahead of the consumed
  tail before the chunk was claimed. -/
  | write (chunk : List Byte) (result : Int) (ahead : Nat)
  | notify (payload : List Byte)
  | b2hPut (offered stored : List Byte)
  | ctrlPut (offered stored : List Byte)
  | ctrlLine (line : Text) (whole : Bool)
  /-- Bytes accepted by `uart_fifo_fill`, from the control ring or from the data ring. -/
  | fill (ctrl : Bool) (bytes : List Byte)
  | callback (kind : Callback)
  | enterAccepted
  /-- Data mode is entered; the bytes that `host_to_ble_ring` holds. -/
  | enter (now : Int) (left : List Byte)
  /-- Data mode is left by the escape sequence; the bytes that `host_to_ble_ring` holds. -/
  | exit (now : Int) (left : List Byte)
  /-- `clear_data_mode_session` with the value of `control_rx_paused` before it. -/
  | clear (paused : Bool)
  | connUnref (conn : Conn)
  /-- The active profile is replaced; `cached` tells whether a write characteristic has been found. -/
  | profile (old new : BleProfile) (cached : Bool)
  | connected (err : Nat)
  | disconnected (reason : Nat)
deriving DecidableEq, Repr

/-! ## The state -/

structure DiscoverParams where
  startHandle : Nat
  endHandle : Nat
  type : Nat
deriving DecidableEq, Repr

def DiscoverParams.zero : DiscoverParams := ⟨0, 0, 0⟩

/-- The fields of `write_params` that change. -/
structure WriteParams where
  handle : Nat
  length : Nat
deriving DecidableEq, Repr

/-- `struct profile_manager_state`. Its `config` pointer always points to the configuration in `App`. -/
structure ProfileManagerState where
  conn : Option Conn
  serviceDiscoverParams : DiscoverParams
  characteristicDiscoverParams : DiscoverParams
  serviceStartHandle : Nat
  serviceEndHandle : Nat
  notifyValueHandle : Nat
  writeValueHandle : Nat
  writeProperties : Nat
  ready : Bool
  serviceFound : Bool
  notifyFound : Bool
  writeFound : Bool
  exchangeInProgress : Bool
  /-- `exchange_params.func` is set. -/
  exchangeParams : Bool
  writeInProgress : Bool
  writeParams : WriteParams
  payloadLen : Nat
  pendingWrite : List Byte
  pendingWriteLen : Nat
deriving DecidableEq, Repr

structure App where
  hostToBleRing : RingBuf Byte HOST_TO_BLE_RING_SIZE
  bleToHostRing : RingBuf Byte BLE_TO_HOST_RING_SIZE
  ctrlTxRing : RingBuf Byte CTRL_TX_RING_SIZE
  currentConn : Option Conn
  scannedDevices : List ScannedDeviceEntry
  /-- The delay in seconds, if the item is scheduled. -/
  scanStopWork : Option Nat
  bleWriteWork : Bool
  bleWriteRetryWork : Bool
  bleWriteCoalesceWork : Bool
  /-- The time at which the delay expires, if the item is scheduled. -/
  escapeGuardWork : Option Int
  streamStats : BleStreamStats
  scanFilterName : Text
  controlDtrReady : Bool
  controlRxPaused : Bool
  dataModePendingEnter : Bool
  dataModeTxFlushDue : Bool
  escapeState : DataModeEscapeState
  appState : AppState
  nextScanIndex : Nat
  lastHostRxTimeMs : Int
  config : BleHostConfig
  store : List (SettingsKey × List Byte)
  pm : ProfileManagerState
  rxIrqEnabled : Bool
  txIrqEnabled : Bool
  link : Link
  /-- The ATT MTU of the connection. -/
  attMtu : Nat
  conns : Nat
  calls : Nat
  log : List Obs

def App.note (s : App) (o : Obs) : App := { s with log := o :: s.log }

/-- Asks the stack; the answer is the next one of the environment. -/
def App.ask (env : Env) (s : App) (call : StackCall) : Int × App :=
  (env.answer s.calls, { s with calls := s.calls + 1, log := .stack call (env.answer s.calls) :: s.log })

/-- `device_is_ready` always holds here: `init_control_uart` has succeeded. -/
def kickUartTx (s : App) : App := if !s.controlDtrReady then s else { s with txIrqEnabled := true }

def queueCtrlBytes (s : App) (data : List Byte) : App :=
  if data = [] then s
  else
    kickUartTx
      { s with
        ctrlTxRing := (s.ctrlTxRing.put data).2
        log := .ctrlPut data (data.take s.ctrlTxRing.spaceGet) :: s.log }

def newline : List Byte := [13, 10]

/-- The line and its terminator are two separate puts. -/
def queueCtrlLine (s : App) (line : Text) : App :=
  let whole := line.length + newline.length ≤ s.ctrlTxRing.spaceGet
  (queueCtrlBytes (queueCtrlBytes s line) newline).note (.ctrlLine line whole)

def updateMaxDepth (currentDepth maxDepth : Nat) : Nat := max currentDepth maxDepth

def BleStreamStats.backpressure (stats : BleStreamStats) : BleStreamStats :=
  { stats with usbBackpressureCount := addU32 stats.usbBackpressureCount 1 }

def queueDataBytes (s : App) (data : List Byte) : App :=
  if data = [] then s
  else
    let (written, ring) := s.bleToHostRing.put data
    let stats := if written < data.length then BleStreamStats.backpressure s.streamStats else s.streamStats
    kickUartTx
      { s with
        bleToHostRing := ring
        streamStats := { stats with maxBleToHostDepth := updateMaxDepth ring.sizeGet stats.maxBleToHostDepth }
        log := .b2hPut data (data.take s.bleToHostRing.spaceGet) :: s.log }

/-! ## Lines of the AT parser outside a command -/

def atHostNotifyScanResult (s : App) (index : Nat) (mac name : Text) (addrType : Nat) (rssi : Int) : App :=
  queueCtrlLine s (snprintk 128 (ascii "+IND=SCDA," ++ decimal index ++ ascii "," ++ mac ++ ascii "," ++ name ++
    ascii "," ++ decimal addrType ++ ascii "," ++ signedDecimal rssi))

def atHostNotifyScanComplete (s : App) : App := queueCtrlLine s (ascii "+IND=SCED")
def atHostNotifyConnected (s : App) : App := queueCtrlLine s (ascii "+IND=BLMC,0")
def atHostNotifyDisconnected (s : App) : App := queueCtrlLine s (ascii "+IND=BLMD,0")
def atHostNotifyReady (s : App) : App := queueCtrlLine s (ascii "+IND=BLMN,0")

def atHostNotifyMtu (s : App) (payloadLen : Nat) : App :=
  queueCtrlLine s (snprintk 32 (ascii "+IND=MTU," ++ decimal payloadLen))

/-- Payloads that are not printable or too long are dropped silently. -/
def atHostNotifyReceive (s : App) (data : List Byte) : App :=
  if !bleHostIsPrintableAscii data || BLE_HOST_SEND_MAX_LEN < data.length then s
  else
    queueCtrlLine s (snprintk (BLE_HOST_SEND_MAX_LEN + 32)
      (ascii "+IND=RECV,0," ++ decimal data.length ++ ascii "," ++ data))

def atHostNotifyLinkParams (s : App) (interval latency timeout : Nat) : App :=
  queueCtrlLine s (snprintk 64 (ascii "+IND=LINKPARA,0," ++ decimal interval ++ ascii "," ++ decimal latency ++
    ascii "," ++ decimal timeout))

def dataModeLine (enabled : Bool) : Text := if enabled then ascii "+IND=DATAMODE,1" else ascii "+IND=DATAMODE,0"

def atHostNotifyDataMode (s : App) (enabled : Bool) : App := queueCtrlLine s (dataModeLine enabled)

def atHostNotifyFunctionError (s : App) : App := queueCtrlLine s AtHost.ErrorKind.functionError.text

end BleAtHost.Main
