import BleAtHost.Main.Actions

/-!
# The traffic with the stack

What the profile manager holds of the connection, which operations it has started, the two data rings and the counters,
without commands, lines and modes. The accounts of the later parts are invariants of these steps.
-/

namespace BleAtHost.Main

/-! ## The view -/

/-- Calls that start or end an operation of the connection. -/
def StackCall.isTraffic : StackCall → Bool
  | .connCreate _ _ _ _ _ | .connDisconnect _ | .gattExchangeMtu _ | .gattWriteWithoutResponse _ _ _
  | .gattWrite _ _ _ => true
  | _ => false

def Obs.isTraffic : Obs → Bool
  | .stack call _ => call.isTraffic
  | .h2bPut _ _ | .h2bReset | .write _ _ _ | .notify _ | .b2hPut _ _ | .fill false _ | .clear _ | .disconnected _ => true
  | _ => false

/-- `stats` has no backpressure and no entries into data mode. -/
structure Traffic where
  conn : Option Conn
  mtu : Nat
  attMtu : Nat
  payloadLen : Nat
  exchangeInProgress : Bool
  exchangeParams : Bool
  writeInProgress : Bool
  writeParams : WriteParams
  pendingWrite : List Byte
  toBle : RingBuf Byte HOST_TO_BLE_RING_SIZE
  toHost : RingBuf Byte BLE_TO_HOST_RING_SIZE
  stats : BleStreamStats
  log : List Obs

def App.traffic (s : App) : Traffic where
  conn := s.pm.conn
  mtu := s.config.mtu
  attMtu := s.attMtu
  payloadLen := s.pm.payloadLen
  exchangeInProgress := s.pm.exchangeInProgress
  exchangeParams := s.pm.exchangeParams
  writeInProgress := s.pm.writeInProgress
  writeParams := s.pm.writeParams
  pendingWrite := s.pm.pendingWrite
  toBle := s.hostToBleRing
  toHost := s.bleToHostRing
  stats := { s.streamStats with usbBackpressureCount := 0, enterDataModeCount := 0 }
  log := s.log.filter Obs.isTraffic

namespace Traffic

/-! ## Operations -/

def note (t : Traffic) (o : Obs) : Traffic := { t with log := o :: t.log }

/-- The payload length that fits the connection and the configuration. -/
def refit (t : Traffic) : Traffic :=
  let attMtu := if t.conn.isSome then t.attMtu else 23
  let preferred := if t.mtu < 23 then 23 else t.mtu
  let attMtu := min attMtu preferred
  { t with payloadLen := if 3 < attMtu then attMtu - 3 else 20 }

/-- No operation is under way. -/
def cleared (t : Traffic) : Traffic :=
  { t with
    exchangeInProgress := false
    exchangeParams := false
    writeInProgress := false
    writeParams := ⟨0, 0⟩ }

def opened (t : Traffic) (conn : Conn) : Traffic := refit { t.cleared with conn := some conn }

/-- The session ends; the receiver may have been stopped. -/
def clearSession (t : Traffic) (paused : Bool) : Traffic := { t with toHost := .empty, log := .clear paused :: t.log }

def countDisconnect (t : Traffic) (reason : Nat) : Traffic :=
  if reason ≠ REMOTE_USER_TERM_CONN then
    { t with
      stats := { t.stats with unexpectedDisconnectCount := addU32 t.stats.unexpectedDisconnectCount 1 } }
  else t

def closed (t : Traffic) (reason : Nat) (paused : Bool) : Traffic :=
  let t := (t.countDisconnect reason).cleared.refit
  ({ t with conn := none, toBle := .empty, log := .h2bReset :: .disconnected reason :: t.log } : Traffic).clearSession paused

def exchange (t : Traffic) (conn : Conn) (result : Int) : Traffic :=
  { t with
    exchangeInProgress := result = 0
    exchangeParams := result = 0
    log := .stack (.gattExchangeMtu conn) result :: t.log }

def exchanged (t : Traffic) : Traffic := { t with exchangeInProgress := false, exchangeParams := false }

def written (t : Traffic) : Traffic := { t with writeInProgress := false }

end Traffic

/-- A write to the peer, with a response or without one. -/
structure Write where
  conn : Conn
  handle : Nat
  data : List Byte
  acked : Bool

def Write.call (w : Write) : StackCall :=
  if w.acked then .gattWrite w.conn w.handle w.data else .gattWriteWithoutResponse w.conn w.handle w.data

namespace Traffic

/-- The checks of `profile_manager_send`. -/
structure MayWrite (t : Traffic) (w : Write) : Prop where
  conn : t.conn = some w.conn
  idle : w.acked → t.writeInProgress = false
  pos : 0 < w.data.length
  fits : w.data.length ≤ t.payloadLen
  buffer : w.data.length ≤ BLE_HOST_SEND_MAX_LEN

def issue (t : Traffic) (w : Write) (result : Int) : Traffic :=
  if w.acked then
    { t with
      pendingWrite := w.data
      writeParams := ⟨w.handle, w.data.length⟩
      writeInProgress := result = 0
      log := .stack w.call result :: t.log }
  else t.note (.stack w.call result)

/-- The chunk that the pump sends next. -/
def chunk (t : Traffic) : List Byte := (t.toBle.getClaim t.payloadLen).1.take BLE_HOST_SEND_MAX_LEN

def claim (t : Traffic) : Traffic := { t with toBle := (t.toBle.getClaim t.payloadLen).2 }

/-- What the pump does with the result of a send. -/
def finish (t : Traffic) (chunk : List Byte) (result : Int) (ahead : Nat) : Traffic :=
  let t := t.note (.write chunk result ahead)
  if result = 0 then
    { t with
      toBle := (t.toBle.getFinish chunk.length).2
      stats :=
        { t.stats with
          bytesHostToBle := addU32 t.stats.bytesHostToBle chunk.length
          writeOps := addU32 t.stats.writeOps 1 } }
  else t

def receive (t : Traffic) (payload : List Byte) : Traffic :=
  { t with
    stats :=
      { t.stats with
        notifyOps := addU32 t.stats.notifyOps 1
        bytesBleToHost := addU32 t.stats.bytesBleToHost payload.length }
    log := .notify payload :: t.log }

def putToBle (t : Traffic) (data : List Byte) : Traffic :=
  let ring := (t.toBle.put data).2
  { t with
    toBle := ring
    stats := { t.stats with maxHostToBleDepth := updateMaxDepth ring.sizeGet t.stats.maxHostToBleDepth }
    log := .h2bPut data (data.take t.toBle.spaceGet) :: t.log }

def putToHost (t : Traffic) (data : List Byte) : Traffic :=
  let ring := (t.toHost.put data).2
  { t with
    toHost := ring
    stats := { t.stats with maxBleToHostDepth := updateMaxDepth ring.sizeGet t.stats.maxBleToHostDepth }
    log := .b2hPut data (data.take t.toHost.spaceGet) :: t.log }

/-- `uart_fifo_fill` from the data ring. -/
def drain (t : Traffic) (accept : Int) : Traffic :=
  { t with
    toHost := (fillFrom t.toHost accept).2.2
    log := .fill false (fillFrom t.toHost accept).2.1 :: t.log }

/-! ## Steps -/

/-- `command` allows writes of the host that are no part of the stream. -/
inductive Step (env : Env) (command : Prop) : Traffic → Traffic → Prop
  | mtu {t : Traffic} (mtu : Nat) (h : 23 ≤ mtu ∧ mtu ≤ 259) : Step env command t { t with mtu := mtu }
  | refit {t : Traffic} : Step env command t t.refit
  | exchange {t : Traffic} (conn : Conn) (result : Int) (hc : t.conn = some conn)
      (hi : t.exchangeInProgress = false) : Step env command t (t.exchange conn result)
  | create {t : Traffic} (conn : Conn) (minInterval maxInterval latency timeout : Nat) (result : Int) :
      Step env command t (t.note (.stack (.connCreate conn minInterval maxInterval latency timeout) result))
  | disconnect {t : Traffic} (conn : Conn) (result : Int) :
      Step env command t (t.note (.stack (.connDisconnect conn) result))
  | commanded {t : Traffic} (w : Write) (result : Int) (h : t.MayWrite w) (hr : result = 0 → command) :
      Step env command t (t.issue w result)
  -- one pass of the pump
  | pumped {t : Traffic} (w : Write) (n : Nat) (hd : w.data = t.chunk) (h : t.MayWrite w) :
      Step env command t ((t.claim.issue w (env.answer n)).finish t.chunk (env.answer n) t.toBle.claimed)
  | refused {t : Traffic} (result : Int) (hr : result ≠ 0) (he : result ≠ -EMSGSIZE) :
      Step env command t (t.claim.finish t.chunk result t.toBle.claimed)
  | receive {t : Traffic} (payload : List Byte) : Step env command t (t.receive payload)
  | putToBle {t : Traffic} (data : List Byte) : Step env command t (t.putToBle data)
  | full {t : Traffic} (data : List Byte) (h : t.toBle.spaceGet = 0) : Step env command t (t.note (.h2bPut data []))
  | putToHost {t : Traffic} (data : List Byte) : Step env command t (t.putToHost data)
  | drain {t : Traffic} (accept : Int) : Step env command t (t.drain accept)
  | clearSession {t : Traffic} (paused : Bool) : Step env command t (t.clearSession paused)

abbrev Steps (env : Env) (command : Prop) : Traffic → Traffic → Prop := Relation.ReflTransGen (Step env command)

end Traffic

/-! ## Events -/

/-- Bytes of the host may hold commands. -/
def Event.isUart : Event → Bool
  | .uart _ _ => true
  | _ => false

/-- What the stack reports changes the traffic at once; the rest of the handler goes on from there. -/
def App.report (s : App) (e : Event) : Traffic :=
  match e, s.link with
  | .attMtu mtu, _ => { s.traffic with attMtu := mtu }
  | .connected err, .creating conn => if err = 0 then s.traffic.opened conn else s.traffic
  | .disconnected reason, .up _ => s.traffic.closed reason s.controlRxPaused
  | .exchange _, .up _ => s.traffic.exchanged
  | .write _, .up _ => s.traffic.written
  | _, _ => s.traffic

/-- What a step observes, the newest first. -/
def news (env : Env) (f : Firmware) (e : Event) : List Obs :=
  (step env f e).app.log.take ((step env f e).app.log.length - f.app.log.length)

end BleAtHost.Main
