import BleAtHost.Lib.Runs
import BleAtHost.Main.Ops

/-!
# The firmware as a transition system

The connection callbacks, the UART service and the interrupt handler of `main.c`, and the events that drive the
firmware. An event is one handler, or one pass of the loop of the interrupt handler. A work item runs only while
it is pending and the stack delivers only the callbacks that fit the state of the connection; an event that is
not possible leaves the state alone.
-/

namespace BleAtHost.Main

/-! ## Connection callbacks -/

section
variable (env : Env)

def connected (s : App) (conn : Conn) (err : Nat) : App :=
  let s := s.note (.connected err)
  if err ≠ 0 then
    let s :=
      match s.currentConn with
      | none => s
      | some current => { s with currentConn := none, log := .connUnref current :: s.log }
    atHostNotifyFunctionError (setState { s with link := .down } .idle)
  else
    let s := setState { s with link := .up conn } .connecting
    let s := atHostNotifyConnected s
    let (result, s) := profileManagerStart env s conn
    if result ≠ 0 then atHostNotifyFunctionError s
    else
      let s := if s.config.autoMtu then (profileManagerRequestMtu env s).2 else s
      let s := if s.config.preferDle then (profileManagerRequestDataLen env s).2 else s
      if s.config.prefer2mPhy then (profileManagerRequestPhy env s).2 else s

/-- `BT_HCI_ERR_REMOTE_USER_TERM_CONN`. -/
def REMOTE_USER_TERM_CONN : Nat := 0x13

def disconnected (s : App) (conn : Conn) (reason : Nat) : App :=
  let s := { s with link := .down }
  let s :=
    if reason ≠ REMOTE_USER_TERM_CONN then
      { s with
        streamStats :=
          { s.streamStats with
            unexpectedDisconnectCount := addU32 s.streamStats.unexpectedDisconnectCount 1 } }
    else s
  let s :=
    if s.currentConn = some conn then
      let s := profileManagerHandleDisconnected env s conn
      { s with currentConn := none, log := .connUnref conn :: s.log }
    else s
  let s := { s with hostToBleRing := .empty, log := .h2bReset :: .disconnected reason :: s.log }
  let s := setState (clearDataModeSession s false) .idle
  refreshUartRxFlowControl (atHostNotifyDisconnected s)

end

def leParamUpdated (s : App) (conn : Conn) (interval latency timeout : Nat) : App :=
  if s.currentConn = some conn then
    atHostNotifyLinkParams (s.note (.callback .linkParams)) interval latency timeout
  else s

/-! ## The UART -/

/-- `activate_pending_data_mode_if_ready`; `now` is its reading of `k_uptime_get`. -/
def activatePendingDataModeIfReady (s : App) (now : Int) : App :=
  if !s.dataModePendingEnter ∨ s.appState = .dataMode ∨ s.currentConn = none then s
  else if s.ctrlTxRing.sizeGet ≠ 0 then s
  else
    refreshUartRxFlowControl
      { s with
        dataModePendingEnter := false
        dataModeTxFlushDue := false
        escapeState := ⟨false, 0⟩
        bleWriteRetryWork := false
        bleWriteCoalesceWork := false
        lastHostRxTimeMs := now
        streamStats :=
          { s.streamStats with enterDataModeCount := addU32 s.streamStats.enterDataModeCount 1 }
        appState := .dataMode
        log := .enter now s.hostToBleRing.data :: .uptime now :: s.log }

/-- `uart_fifo_fill` accepts at most what it is given; a negative result is an error. -/
def uartFifoFill (accept : Int) (data : List Byte) : Int := min accept data.length

/-- The claim, the fill and the finish that `service_uart_tx` makes on one ring, under one lock: how much was
available, how much was sent and the ring afterwards. -/
def fillFrom {size : Nat} (ring : RingBuf Byte size) (accept : Int) : Nat × List Byte × RingBuf Byte size :=
  let (data, claimed) := ring.getClaim UART_TX_CHUNK
  if data = [] then (0, [], claimed)
  else
    let sent := (uartFifoFill accept data).toNat
    (data.length, data.take sent, (claimed.getFinish sent).2)

/-- `service_uart_tx`; at most one of its two calls of `activate_pending_data_mode_if_ready` activates. -/
def serviceUartTx (s : App) (accept : Int) (now : Int) : App :=
  let s := activatePendingDataModeIfReady s now
  if s.appState = .dataMode ∧ s.ctrlTxRing.sizeGet = 0 then
    let (available, sent, ring) := fillFrom s.bleToHostRing accept
    let s := { s with bleToHostRing := ring, log := .fill false sent :: s.log }
    if available = 0 ∨ sent = [] then { s with txIrqEnabled := false }
    else activatePendingDataModeIfReady s now
  else
    let (available, sent, ring) := fillFrom s.ctrlTxRing accept
    let s := { s with ctrlTxRing := ring, log := .fill true sent :: s.log }
    if available = 0 ∨ sent = [] then { s with txIrqEnabled := false }
    else activatePendingDataModeIfReady s now

structure Firmware where
  host : AtHost.State
  app : App
  trace : List AtHost.Call

section
variable (env : Env)

def Firmware.world (f : Firmware) : AtHost.World App := ⟨f.host, f.app, f.trace⟩

/-- The receive half of a pass of `control_uart_isr`; `uart_fifo_read` returns at most a chunk. -/
def controlUartIsrRx (f : Firmware) (data : List RxByte) : Firmware :=
  let received := data.take CONTROL_UART_RX_CHUNK
  if f.app.appState = .dataMode ∧ f.app.hostToBleRing.spaceGet < CONTROL_UART_RX_CHUNK then
    { f with
      app :=
        { f.app with
          controlRxPaused := true
          streamStats := BleStreamStats.backpressure f.app.streamStats
          rxIrqEnabled := false } }
  else if received = [] then f
  else if f.app.appState = .dataMode then
    let bytes := received.map RxByte.ch
    { f with
      app :=
        handleDataModeRx
          (f.app.note (.dataRx bytes f.app.hostToBleRing.spaceGet f.app.escapeState.held)) received }
  else
    let bytes := received.map RxByte.ch
    let w := AtHost.atHostRxBytes (atOps env) atTx ⟨f.host, f.app.note (.atRx bytes), f.trace⟩ bytes
    ⟨w.host, w.ctx, w.trace⟩

/-- The transmit half: `uart_irq_tx_ready` holds if `uart_fifo_fill` has an answer. -/
def controlUartIsrTx (f : Firmware) (tx : Option (Int × Int)) : Firmware :=
  match tx with
  | some (accept, now) => if f.app.txIrqEnabled then { f with app := serviceUartTx f.app accept now } else f
  | none => f

/-- One pass of the loop of `control_uart_isr`. `tx` is the answer of `uart_fifo_fill` with the clock reading of
the service if the transmitter is ready, `rx` what the receiver has if it is ready; each is ready only while its
interrupt is enabled. -/
def controlUartIsr (f : Firmware) (tx : Option (Int × Int)) (rx : Option (List RxByte)) : Firmware :=
  let f := controlUartIsrTx f tx
  match rx with
  | some data => if f.app.rxIrqEnabled then controlUartIsrRx env f data else f
  | none => f

/-- `USBD_MSG_CDC_ACM_CONTROL_LINE_STATE` in `usb_message_cb`. -/
def usbMessageCb (s : App) (dtr : Bool) : App :=
  if !dtr then { s with controlDtrReady := false, txIrqEnabled := false }
  else kickUartTx { s with controlDtrReady := true }

/-! ## Events -/

inductive Event where
  | uart (tx : Option (Int × Int)) (rx : Option (List RxByte))
  | lineState (dtr : Bool)
  | bleWriteWork
  | bleWriteRetryWork
  | bleWriteCoalesceWork
  | escapeGuardWork (now : Int)
  | scanStopWork
  | deviceFound (addr : BtAddrLe) (rssi : Int) (type : Nat) (ad : List Byte)
  | connected (err : Nat)
  | disconnected (reason : Nat)
  | leParamUpdated (interval latency timeout : Nat)
  /-- Also the MTU with which the next connection begins. -/
  | attMtu (mtu : Nat)
  | serviceDiscover (attr : Option GattService)
  | characteristicDiscover (attr : Option GattChrc)
  | subscribe (err : Nat)
  | notify (data : Option (List Byte))
  | exchange (err : Nat)
  | write (err : Nat)

/-- A GATT callback is delivered only while the connection is up. -/
def whileUp (s : App) (f : App → App) : App :=
  match s.link with
  | .up _ => f s
  | _ => s

/-- Events other than those of the UART. -/
def stepApp (s : App) : Event → App
  | .uart _ _ => s
  | .lineState dtr => usbMessageCb s dtr
  | .bleWriteWork => if s.bleWriteWork then bleWriteWorkHandler env { s with bleWriteWork := false } else s
  | .bleWriteRetryWork =>
      if s.bleWriteRetryWork then bleWriteRetryWorkHandler { s with bleWriteRetryWork := false } else s
  | .bleWriteCoalesceWork =>
      if s.bleWriteCoalesceWork then bleWriteCoalesceWorkHandler { s with bleWriteCoalesceWork := false } else s
  | .escapeGuardWork now =>
      if s.escapeGuardWork.isSome then escapeGuardWorkHandler { s with escapeGuardWork := none } now else s
  | .scanStopWork => if s.scanStopWork.isSome then scanStopWorkHandler env { s with scanStopWork := none } else s
  | .deviceFound addr rssi type ad => deviceFound env s addr rssi type ad
  | .connected err =>
      match s.link with
      | .creating conn => connected env s conn err
      | _ => s
  | .disconnected reason =>
      match s.link with
      | .up conn => disconnected env s conn reason
      | _ => s
  | .leParamUpdated interval latency timeout =>
      match s.link with
      | .up conn => leParamUpdated s conn interval latency timeout
      | _ => s
  | .attMtu mtu => { s with attMtu := mtu }
  | .serviceDiscover attr => whileUp s fun s => serviceDiscoverCb env s attr
  | .characteristicDiscover attr => whileUp s fun s => characteristicDiscoverCb env s attr
  | .subscribe err => whileUp s fun s => subscribeHandler s err
  | .notify data => whileUp s fun s => notifyHandler s data
  | .exchange err => whileUp s fun s => exchangeHandler s err
  | .write err => whileUp s fun s => writeHandler s err

def step (f : Firmware) : Event → Firmware
  | .uart tx rx => controlUartIsr env f tx rx
  | e => { f with app := stepApp env f.app e }

/-- The state in which `main` leaves the firmware: `config` is what the settings hold, `started` the reading of
`k_uptime_get` at the start, and the terminal may have raised and dropped DTR since. -/
def boot (config : BleHostConfig) (started : Int) (dtr : Bool) : Firmware where
  host := .init
  trace := []
  app :=
    { hostToBleRing := .empty
      bleToHostRing := .empty
      ctrlTxRing := .empty
      currentConn := none
      scannedDevices := List.replicate MAX_SCANNED_DEVICES .zero
      scanStopWork := none
      bleWriteWork := false
      bleWriteRetryWork := false
      bleWriteCoalesceWork := false
      escapeGuardWork := none
      streamStats := ⟨0, 0, 0, 0, 0, 0, 0, 0, 0⟩
      scanFilterName := []
      controlDtrReady := dtr
      controlRxPaused := false
      dataModePendingEnter := false
      dataModeTxFlushDue := false
      escapeState := ⟨false, 0⟩
      appState := .idle
      nextScanIndex := 0
      lastHostRxTimeMs := started
      config := config
      store := []
      pm :=
        { conn := none
          serviceDiscoverParams := .zero
          characteristicDiscoverParams := .zero
          serviceStartHandle := 0
          serviceEndHandle := 0
          notifyValueHandle := 0
          writeValueHandle := 0
          writeProperties := 0
          ready := false
          serviceFound := false
          notifyFound := false
          writeFound := false
          exchangeInProgress := false
          exchangeParams := false
          writeInProgress := false
          writeParams := ⟨0, 0⟩
          payloadLen := min 23 (if config.mtu < 23 then 23 else config.mtu) - 3
          pendingWrite := []
          pendingWriteLen := 0 }
      rxIrqEnabled := true
      txIrqEnabled := dtr
      link := .down
      attMtu := 23
      conns := 0
      calls := 0
      log := [.uptime started] }

/-- The states that runs from a start reach. -/
def Reachable (f : Firmware) : Prop :=
  ∃ config started dtr es, f = Runs.run (step env) (boot config started dtr) es

theorem Reachable.next {f : Firmware} (h : Reachable env f) (e : Event) : Reachable env (step env f e) := by
  obtain ⟨config, started, dtr, es, rfl⟩ := h
  exact ⟨config, started, dtr, es ++ [e], by rw [Runs.run_append]; rfl⟩

end

/-! ## Runs into data mode

The concrete runs that stand next to the theorems begin with a connection that enters data mode at 3000. -/

/-- A stack that has no memory for some of its calls and accepts all others. -/
def stackRefusing (refused : List Nat) : Env where
  answer n := if n ∈ refused then -ENOMEM else 0
  btAddrFromStr _ := some [1, 2, 3, 4, 5, 6]
  btAddrToStr _ := ascii "06:05:04:03:02:01"

def sampleConfig : BleHostConfig where
  activeProfile := ⟨ascii "0xFFF0", ascii "0xFFF1", ascii "0xFFF2"⟩
  mtu := 259
  connIntervalMin := 6
  connIntervalMax := 9
  latency := 0
  timeout := 400
  autoMtu := true
  autoSubscribe := true
  prefer2mPhy := true
  preferDle := true
  allowDataMode := true
  streamGuardTimeMs := 1000

def hostSends (text : String) (now : Int) : Event := .uart none (some ((ascii text).map fun ch => ⟨ch, now, now⟩))

/-- The transmitter accepts a whole chunk. -/
def transmit (now : Int) : Event := .uart (some (UART_TX_CHUNK, now)) none

def becomeReady : List Event :=
  [hostSends "AT+STARTCON=0x010203040506,0\r\n" 0, .connected 0,
    .serviceDiscover (some ⟨.uuid16 0xfff0, 1, 10⟩), .serviceDiscover none,
    .characteristicDiscover (some ⟨.uuid16 0xfff1, 3, 16⟩),
    .characteristicDiscover (some ⟨.uuid16 0xfff2, 5, 4⟩), .characteristicDiscover none, .subscribe 0]

def enterDataMode (now : Int) : List Event := [hostSends "AT+ENTERDATAMODE=0\r\n" now, transmit now]

def runReady (env : Env) (es : List Event) : Firmware :=
  Runs.run (step env) (boot sampleConfig 0 true) (becomeReady ++ es)

def runDataMode (env : Env) (es : List Event) : Firmware := runReady env (enterDataMode 3000 ++ es)

theorem runDataMode_append (env : Env) (es es' : List Event) :
    runDataMode env (es ++ es') = Runs.run (step env) (runDataMode env es) es' := by
  simp only [runDataMode, runReady, ← Runs.run_append, List.append_assoc]

theorem reachable_runReady (env : Env) (es : List Event) : Reachable env (runReady env es) :=
  ⟨sampleConfig, 0, true, _, rfl⟩

theorem reachable_runDataMode (env : Env) (es : List Event) : Reachable env (runDataMode env es) :=
  reachable_runReady env _

end BleAtHost.Main
