import BleAtHost.Lib.Runs
import BleAtHost.Main.Stream
import BleAtHost.Main.Log

/-!
# The bridge

What the firmware is for, without its timers, its statistics, its commands and the contents of its lines: three
byte queues between a host and a peer, an escape detector on the way in, a switch between commands and data, and
a link. `Step` lets every party act whenever its own condition allows it; in particular the stack may accept or
refuse any chunk at any time. All statements about runs are invariants of `Step`.
-/

namespace BleAtHost

open Main Relation

/-- `armed` tells whether the guard timer runs; `chunkLeft` is the number of bytes of the chunk just read that are
not taken up yet. -/
structure Bridge where
  toBle : RingBuf Byte HOST_TO_BLE_RING_SIZE
  toHost : RingBuf Byte BLE_TO_HOST_RING_SIZE
  ctrl : RingBuf Byte CTRL_TX_RING_SIZE
  mode : AppState
  pending : Bool
  conn : Option Conn
  pmConn : Option Conn
  ready : Bool
  link : Link
  paused : Bool
  rxIrq : Bool
  escape : DataModeEscapeState
  last : Int
  guardTime : Nat
  armed : Bool
  chunkLeft : Nat
  log : List Obs

namespace Bridge

/-! ## Operations -/

def note (b : Bridge) (o : Obs) : Bridge := { b with log := o :: b.log }

def refresh (b : Bridge) : Bridge :=
  if b.mode ≠ .dataMode then if b.paused then { b with paused := false, rxIrq := true } else b
  else if b.toBle.spaceGet < CONTROL_UART_RX_CHUNK then
    if !b.paused then { b with paused := true, rxIrq := false } else b
  else if b.paused then { b with paused := false, rxIrq := true }
  else b

def activate (b : Bridge) (now : Int) : Bridge :=
  if !b.pending ∨ b.mode = .dataMode ∨ b.conn = none then b
  else if b.ctrl.sizeGet ≠ 0 then b
  else
    refresh
      { b with
        pending := false
        escape := ⟨false, 0⟩
        last := now
        mode := .dataMode
        log := .enter now b.toBle.data :: .uptime now :: b.log }

/-- The end of a session; `mode` is the next one. -/
def clear (b : Bridge) (mode : AppState) : Bridge :=
  { b with
    toHost := .empty
    paused := false
    pending := false
    escape := ⟨false, 0⟩
    armed := false
    mode := mode
    log := .clear b.paused :: b.log }

def offer (b : Bridge) (data : List Byte) : Bridge :=
  { b with
    toBle := (b.toBle.put data).2
    log := .h2bPut data (data.take b.toBle.spaceGet) :: b.log }

/-- Held-back pluses become payload. -/
def flush (b : Bridge) (now : Int) : Bridge :=
  if !b.escape.active ∨ b.escape.count = 0 then b
  else { (b.offer ([PLUS, PLUS, PLUS].take b.escape.count)).note (.uptime now) with escape := ⟨false, 0⟩, last := now }

/-- The guard timer does not run any more. -/
def disarm (b : Bridge) : Bridge := { b with armed := false }

/-- A byte that does not continue a candidate opens one or is payload. -/
def consider (b : Bridge) (byte : RxByte) : Bridge :=
  if byte.ch = PLUS ∧ b.guardTime ≤ Detector.elapsed byte.now b.last then
    { b with escape := ⟨true, 1⟩, last := byte.now, armed := true }
  else { b.offer [byte.ch] with last := byte.now }

/-- A byte stops the timer of a candidate. -/
def take (b : Bridge) (byte : RxByte) : Bridge :=
  { b with
    armed := if b.escape.active then false else b.armed
    chunkLeft := b.chunkLeft - 1
    log := .uptime byte.now :: .rx byte b.escape.held b.last :: b.log }

def rx (b : Bridge) (byte : RxByte) : Bridge :=
  if b.escape.active then
    if byte.ch = PLUS ∧ b.escape.count < 3 then
      { b.take byte with escape := ⟨true, b.escape.count + 1⟩, last := byte.now, armed := true }
    else ((b.take byte).flush byte.flushNow).consider byte
  else (b.take byte).consider byte

/-- The first `k` bytes of a claim of at most `n` are given to the stack. -/
def chunk (b : Bridge) (n k : Nat) : List Byte := (b.toBle.getClaim n).1.take k

def send (b : Bridge) (n k : Nat) (result : Int) : Bridge :=
  { b with
    toBle := (b.toBle.getClaim n).2
    log := .write (b.chunk n k) result b.toBle.claimed :: b.log }

/-- The accepted chunk is consumed. -/
def sendAccepted (b : Bridge) (n k : Nat) : Bridge :=
  refresh { b.send n k 0 with toBle := ((b.toBle.getClaim n).2.getFinish (b.chunk n k).length).2 }

def putCtrl (b : Bridge) (data : List Byte) : Bridge :=
  { b with
    ctrl := (b.ctrl.put data).2
    log := .ctrlPut data (data.take b.ctrl.spaceGet) :: b.log }

def putToHost (b : Bridge) (data : List Byte) : Bridge :=
  { b with
    toHost := (b.toHost.put data).2
    log := .b2hPut data (data.take b.toHost.spaceGet) :: b.log }

/-- A notification; outside data mode it can only become a line. -/
def notify (b : Bridge) (payload : List Byte) : Bridge :=
  if b.mode = .dataMode ∧ payload ≠ [] then (b.note (.notify payload)).putToHost payload
  else b.note (.notify payload)

/-- Bytes of the control queue are accepted by the transmitter. If any were, the switch to data is tried. -/
def fillCtrl (b : Bridge) (sent : List Byte) (ring : RingBuf Byte CTRL_TX_RING_SIZE) (now : Int) : Bridge :=
  if sent = [] then { b with ctrl := ring, log := .fill true sent :: b.log }
  else activate { b with ctrl := ring, log := .fill true sent :: b.log } now

def fillToHost (b : Bridge) (sent : List Byte) (ring : RingBuf Byte BLE_TO_HOST_RING_SIZE) : Bridge :=
  { b with toHost := ring, log := .fill false sent :: b.log }

def connectFailed (b : Bridge) (err : Nat) : Bridge :=
  { b with link := .down, conn := none, mode := .idle, log := .connected err :: b.log }

def connectOk (b : Bridge) (conn : Conn) : Bridge :=
  { b with link := .up conn, pmConn := some conn, ready := false, mode := .connecting, log := .connected 0 :: b.log }

def disconnect (b : Bridge) (reason : Nat) : Bridge :=
  clear
    { b with
      link := .down
      conn := none
      pmConn := none
      ready := false
      toBle := .empty
      log := .h2bReset :: .disconnected reason :: b.log } .idle

/-! ## Steps -/

/-- Observations that come with no change. -/
def Quiet : Obs → Prop
  | .uptime _ | .stack _ _ | .callback _ | .connUnref _ | .profile _ _ _ => True
  | _ => False

/-- The control queue may grow in data mode only because of a callback in this session. -/
def MayPutCtrl (b : Bridge) : Prop := b.mode = .dataMode → ∃ kind, Obs.callback kind ∈ session b.log

inductive Step : Bridge → Bridge → Prop
  | quiet {b : Bridge} {o : Obs} (h : Quiet o) : Step b (b.note o)
  -- the receiver
  | atRx {b : Bridge} (bytes : List Byte) (h : b.mode ≠ .dataMode) : Step b (b.note (.atRx bytes))
  | read {b : Bridge} (bytes : List Byte) (h : b.mode = .dataMode) :
      Step b { b.note (.dataRx bytes b.toBle.spaceGet b.escape.held) with chunkLeft := bytes.length }
  | rx {b : Bridge} (byte : RxByte) (h : b.mode = .dataMode) (hc : 0 < b.chunkLeft) : Step b (b.rx byte)
  | pause {b : Bridge} (h : b.mode = .dataMode) (hs : b.toBle.spaceGet < CONTROL_UART_RX_CHUNK) :
      Step b { b with paused := true, rxIrq := false }
  | refresh {b : Bridge} : Step b b.refresh
  -- the guard timer
  | wait {b : Bridge} (now : Int) (ha : b.escape.active) (hn : b.escape.count = 3) :
      Step b ((b.note (.uptime now)).note (.guard now))
  | expire {b : Bridge} (now : Int) (ha : b.escape.active) (hn : b.escape.count ≠ 3) :
      Step b ((b.flush now).note (.guard now)).disarm
  | idle {b : Bridge} (ha : ¬b.escape.active) : Step b b.disarm
  | exit {b : Bridge} (now : Int) (mode : AppState) (ha : b.escape.active) (hn : b.escape.count = 3)
      (hg : b.guardTime ≤ Detector.elapsed now b.last) (hm : mode ≠ .dataMode) :
      Step b (((b.note (.uptime now)).note (.exit now b.toBle.data)).clear mode)
  -- the pump
  | sendFailed {b : Bridge} (n k : Nat) (result : Int) (h : result ≠ 0) : Step b (b.send n k result)
  | sendAccepted {b : Bridge} (n k : Nat) : Step b (b.sendAccepted n k)
  -- the transmitter
  | putCtrl {b : Bridge} (data : List Byte) (h : b.MayPutCtrl) : Step b (b.putCtrl data)
  | ctrlLine {b : Bridge} (line : Text) (whole : Bool) (h : whole → b.ctrl.data ≠ []) :
      Step b (b.note (.ctrlLine line whole))
  | notify {b : Bridge} (payload : List Byte) : Step b (b.notify payload)
  | fillCtrl {b : Bridge} (sent : List Byte) (ring : RingBuf Byte CTRL_TX_RING_SIZE) (now : Int)
      (h : b.ctrl.Takes sent ring) (hd : b.mode = .dataMode → b.ctrl.sizeGet ≠ 0) :
      Step b (b.fillCtrl sent ring now)
  | fillToHost {b : Bridge} (sent : List Byte) (ring : RingBuf Byte BLE_TO_HOST_RING_SIZE)
      (h : b.toHost.Takes sent ring) (hd : b.mode = .dataMode) (hc : b.ctrl.sizeGet = 0) :
      Step b (b.fillToHost sent ring)
  | activate {b : Bridge} (now : Int) : Step b (b.activate now)
  -- the link
  | setMode {b : Bridge} (mode : AppState) (h : b.mode ≠ .dataMode) (hm : mode ≠ .dataMode) :
      Step b { b with mode := mode }
  | create {b : Bridge} (conn : Conn) (h : b.conn = none) :
      Step b { b with conn := some conn, link := .creating conn, mode := .connecting }
  | connectFailed {b : Bridge} (err : Nat) (conn : Conn) (h : b.link = .creating conn) : Step b (b.connectFailed err)
  | connectOk {b : Bridge} (conn : Conn) (h : b.link = .creating conn) : Step b (b.connectOk conn)
  | setReady {b : Bridge} (ready : Bool) (conn : Conn) (h : b.link = .up conn) : Step b { b with ready := ready }
  | enterAccepted {b : Bridge} (hr : b.ready) (hc : b.conn ≠ none) (hm : b.mode ≠ .dataMode)
      (hp : b.pending = false) : Step b { b.note .enterAccepted with pending := true }
  | disconnect {b : Bridge} (reason : Nat) (conn : Conn) (h : b.link = .up conn) : Step b (b.disconnect reason)

/-- The bridge after `main`. -/
def start (guardTime : Nat) (started : Int) : Bridge where
  toBle := .empty
  toHost := .empty
  ctrl := .empty
  mode := .idle
  pending := false
  conn := none
  pmConn := none
  ready := false
  link := .down
  paused := false
  rxIrq := true
  escape := ⟨false, 0⟩
  last := started
  guardTime := guardTime
  armed := false
  chunkLeft := 0
  log := [.uptime started]

/-- What any interleaving of steps reaches. -/
def Reachable (b : Bridge) : Prop := ∃ guardTime started, ReflTransGen Step (start guardTime started) b

end Bridge

end BleAtHost
