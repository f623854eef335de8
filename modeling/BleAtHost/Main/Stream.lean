import BleAtHost.Main.State

/-!
# Data mode: flow control, escape detection and the scheduling of writes

The part of `main.c` that carries bytes from the host to `host_to_ble_ring`.
-/

namespace BleAtHost.Main

/-- `BT_GATT_CHRC_WRITE_WITHOUT_RESP` and `BT_GATT_CHRC_WRITE`. -/
def CHRC_WRITE_WITHOUT_RESP : Nat := 4
def CHRC_WRITE : Nat := 8

def profileManagerCanEnterDataMode (pm : ProfileManagerState) : Bool :=
  pm.ready && pm.writeFound && pm.writeValueHandle ≠ 0 && pm.writeProperties &&& CHRC_WRITE_WITHOUT_RESP ≠ 0

def setState (s : App) (newState : AppState) : App := { s with appState := newState }

/-- The state that a closed session or a stopped scan falls back to. -/
def App.restState (s : App) : AppState := if s.currentConn.isSome then .controlReady else .idle

def clearDataModeSession (s : App) (resetMode : Bool) : App :=
  { s with
    bleToHostRing := .empty
    controlRxPaused := false
    dataModePendingEnter := false
    dataModeTxFlushDue := false
    escapeState := ⟨false, 0⟩
    bleWriteRetryWork := false
    bleWriteCoalesceWork := false
    escapeGuardWork := none
    appState := if resetMode then s.restState else s.appState
    log := .clear s.controlRxPaused :: s.log }

def refreshUartRxFlowControl (s : App) : App :=
  if s.appState ≠ .dataMode then
    if s.controlRxPaused then { s with controlRxPaused := false, rxIrqEnabled := true } else s
  else if s.hostToBleRing.spaceGet < CONTROL_UART_RX_CHUNK then
    if !s.controlRxPaused then
      { s with
        controlRxPaused := true
        streamStats := BleStreamStats.backpressure s.streamStats
        rxIrqEnabled := false }
    else s
  else if s.controlRxPaused then { s with controlRxPaused := false, rxIrqEnabled := true }
  else s

/-- `schedule_data_mode_ble_tx`; `schedule_ble_write_pump(K_NO_WAIT)` submits `ble_write_work`. -/
def scheduleDataModeBleTx (s : App) : App :=
  if s.appState ≠ .dataMode ∨ s.currentConn = none ∨ !profileManagerCanEnterDataMode s.pm then s
  else if s.hostToBleRing.sizeGet = 0 then
    { s with dataModeTxFlushDue := false, bleWriteCoalesceWork := false }
  else if s.pm.payloadLen ≤ s.hostToBleRing.sizeGet then
    { s with dataModeTxFlushDue := false, bleWriteCoalesceWork := false, bleWriteWork := true }
  else { s with dataModeTxFlushDue := false, bleWriteCoalesceWork := true }

/-- `ring_put_bytes` on `host_to_ble_ring`. -/
def putHostToBle (s : App) (data : List Byte) : App :=
  { s with
    hostToBleRing := (s.hostToBleRing.put data).2
    log := .h2bPut data (data.take s.hostToBleRing.spaceGet) :: s.log }

def updateHostToBleDepth (s : App) : App :=
  { s with
    streamStats :=
      { s.streamStats with
        maxHostToBleDepth := updateMaxDepth s.hostToBleRing.sizeGet s.streamStats.maxHostToBleDepth } }

/-- The ASCII plus sign. -/
def PLUS : Byte := 43

/-- `flush_escape_candidate_as_payload`; `now` is its reading of `k_uptime_get`. -/
def flushEscapeCandidateAsPayload (s : App) (now : Int) : App :=
  if !s.escapeState.active ∨ s.escapeState.count = 0 then s
  else
    let s := updateHostToBleDepth (putHostToBle s ([PLUS, PLUS, PLUS].take s.escapeState.count))
    let s := { s with escapeState := ⟨false, 0⟩, lastHostRxTimeMs := now, log := .uptime now :: s.log }
    scheduleDataModeBleTx s

def exitDataMode (s : App) : App :=
  let s := clearDataModeSession s true
  let s := atHostNotifyDataMode s false
  let s := kickUartTx s
  refreshUartRxFlowControl s

/-- `escape_guard_work_handler`; `now` is the reading of `k_uptime_get` that it makes itself or through the
flush. -/
def escapeGuardWorkHandler (s : App) (now : Int) : App :=
  let guardTimeMs := s.config.streamGuardTimeMs
  if !s.escapeState.active then s
  else if s.escapeState.count = 3 then
    let s := s.note (.uptime now)
    if Detector.elapsed now s.lastHostRxTimeMs < guardTimeMs then
      { s with escapeGuardWork := some (now + guardTimeMs), log := .guard now :: s.log }
    else exitDataMode (s.note (.exit now s.hostToBleRing.data))
  else (flushEscapeCandidateAsPayload s now).note (.guard now)

/-- What the loop body of `handle_data_mode_rx` does with a byte that does not continue a candidate. -/
def openOrPut (s : App) (guardTimeMs : Nat) (b : RxByte) : App :=
  if b.ch = PLUS ∧ guardTimeMs ≤ Detector.elapsed b.now s.lastHostRxTimeMs then
    { s with
      escapeState := ⟨true, 1⟩
      lastHostRxTimeMs := b.now
      escapeGuardWork := some (b.now + guardTimeMs) }
  else
    let full := (s.hostToBleRing.put [b.ch]).1 ≠ 1
    let s := putHostToBle s [b.ch]
    let s :=
      if full then { s with streamStats := BleStreamStats.backpressure s.streamStats }
      else updateHostToBleDepth s
    { s with lastHostRxTimeMs := b.now }

/-- The loop body of `handle_data_mode_rx`. Every path through the inner loop leaves it in its first pass. -/
def dataModeRxByte (guardTimeMs : Nat) (s : App) (b : RxByte) : App :=
  let s := { s with log := .uptime b.now :: .rx b s.escapeState.held s.lastHostRxTimeMs :: s.log }
  if s.escapeState.active then
    let s := { s with escapeGuardWork := none }
    if b.ch = PLUS ∧ s.escapeState.count < 3 then
      { s with
        escapeState := ⟨true, s.escapeState.count + 1⟩
        lastHostRxTimeMs := b.now
        escapeGuardWork := some (b.now + guardTimeMs) }
    else openOrPut (flushEscapeCandidateAsPayload s b.flushNow) guardTimeMs b
  else openOrPut s guardTimeMs b

def handleDataModeRx (s : App) (data : List RxByte) : App :=
  let guardTimeMs := s.config.streamGuardTimeMs
  let s := data.foldl (dataModeRxByte guardTimeMs) s
  refreshUartRxFlowControl (scheduleDataModeBleTx s)

end BleAtHost.Main
