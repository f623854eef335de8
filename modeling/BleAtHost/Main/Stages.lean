import BleAtHost.Lib.Monitor
import BleAtHost.Main.ScanCache

/-!
# The stages of the application

What an observer of the calls to the stack and of its callbacks, of the queued control lines and of the UART has to
expect. Accepting a request for data mode, entering it, leaving it by the escape sequence and putting a payload for the
host are observations as well (`enterAccepted`, `enter`, `exit`, `b2hPut`). The monitor reads no variable of `main.c`;
`App.stage` says where they stand, and where the link stands in the stack.
-/

namespace BleAtHost.Main

/-- How a connection is used: by commands, by commands after data mode was requested, as a stream. -/
inductive Use where
  | control
  | requested
  | data
deriving DecidableEq, Repr

inductive Stage where
  | idle
  | scanning
  /-- The radio has stopped; the end of the scan may be announced. -/
  | stopped
  | creating (conn : Conn)
  /-- The connection has failed, its reference is still held. -/
  | failed (conn : Conn)
  /-- The connection is open, which is not announced yet. -/
  | opened (conn : Conn)
  | up (conn : Conn) (use : Use)
  /-- Data mode was left by the escape sequence, which is not announced yet. -/
  | left (conn : Conn)
  /-- The connection is lost, its reference is still held. -/
  | ending (conn : Conn)
  | released
  /-- The end of the connection is not announced yet. -/
  | closed
deriving DecidableEq, Repr

/-- The connection whose reference is held. -/
def Stage.conn : Stage → Option Conn
  | .creating conn | .failed conn | .opened conn | .up conn _ | .left conn | .ending conn => some conn
  | _ => none

/-! ## Lines -/

/-- What a control line says. -/
inductive Speech where
  | connected
  | disconnected
  | ready
  | mtu
  | linkParams
  | received
  | scanResult
  | scanComplete
  | dataModeLeft
  | error
  | answer
deriving DecidableEq, Repr

/-- A text that lines are, or begin with. -/
structure Sign where
  text : Text
  whole : Bool
  speech : Speech
deriving DecidableEq, Repr

def Sign.marks (sign : Sign) (line : Text) : Bool :=
  if sign.whole then line == sign.text else sign.text.isPrefixOf line

def signs : List Sign :=
  [⟨ascii "+IND=BLMC,0", true, .connected⟩, ⟨ascii "+IND=BLMD,0", true, .disconnected⟩,
    ⟨ascii "+IND=BLMN,0", true, .ready⟩, ⟨ascii "+IND=MTU,", false, .mtu⟩,
    ⟨ascii "+IND=LINKPARA,0,", false, .linkParams⟩, ⟨ascii "+IND=RECV,0,", false, .received⟩,
    ⟨ascii "+IND=SCDA,", false, .scanResult⟩, ⟨ascii "+IND=SCED", true, .scanComplete⟩,
    ⟨ascii "+IND=DATAMODE,0", true, .dataModeLeft⟩, ⟨ascii "+ERR=Function Error", true, .error⟩,
    ⟨ascii "+OK", false, .answer⟩, ⟨ascii "+ERR", false, .answer⟩, ⟨ascii "0:", false, .answer⟩,
    ⟨ascii "+IND=DATAMODE,1", false, .answer⟩]

def speech (line : Text) : Option Speech := (signs.find? fun sign => sign.marks line).map Sign.speech

/-- The stage after a line. In data mode the parser is silent, and no payload becomes a line. -/
def Stage.speak : Stage → Speech → Option Stage
  | .opened conn, .connected => some (.up conn .control)
  | .closed, .disconnected => some .idle
  | .stopped, .scanComplete => some .idle
  | .left conn, .dataModeLeft => some (.up conn .control)
  | .scanning, .scanResult => some .scanning
  | .up conn use, .ready | .up conn use, .mtu | .up conn use, .linkParams | .up conn use, .error => some (.up conn use)
  | .up conn .control, .received | .up conn .control, .answer => some (.up conn .control)
  | .up conn .requested, .received | .up conn .requested, .answer => some (.up conn .requested)
  | .idle, .error | .idle, .answer => some .idle
  | .scanning, .error | .scanning, .answer => some .scanning
  | .creating conn, .error | .creating conn, .answer => some (.creating conn)
  | _, _ => none

/-! ## Calls -/

/-- The connection on which the stack is called; `bt_conn_le_create` hands one out. -/
def StackCall.named : StackCall → Option Conn
  | .connDisconnect conn | .connParamUpdate conn _ _ _ _ | .dataLenUpdate conn | .phyUpdate conn
  | .gattUnsubscribe conn | .gattExchangeMtu conn | .gattWriteWithoutResponse conn _ _ | .gattWrite conn _ _ => some conn
  | .gattDiscover conn _ _ _ | .gattSubscribe conn _ => conn
  | _ => none

/-- The stage after a call with this result. -/
def Stage.call (stage : Stage) (call : StackCall) (result : Int) : Option Stage :=
  match stage, call with
  | stage, .settingsSave _ _ => some stage
  | .idle, .scanStart => some (if result = 0 then .scanning else .idle)
  | .scanning, .scanStop => some (if result = 0 ∨ result = -EALREADY then .stopped else .scanning)
  | .idle, .connCreate conn _ _ _ _ | .stopped, .connCreate conn _ _ _ _ =>
      some (if result = 0 then .creating conn else .idle)
  | .creating conn, .connDisconnect named | .creating conn, .connParamUpdate named _ _ _ _ =>
      if conn = named then some (.creating conn) else none
  | .up conn _, .gattUnsubscribe named => if conn = named then some (.ending conn) else none
  | .up conn use, call => if call.named = some conn then some (.up conn use) else none
  | _, _ => none

/-- The stage after an observation. -/
def Stage.next (stage : Stage) (o : Obs) : Option Stage :=
  match o, stage with
  | .stack call result, stage => stage.call call result
  | .ctrlLine line _, stage => (speech line).bind stage.speak
  | .connected err, .creating conn => some (if err = 0 then .opened conn else .failed conn)
  | .connUnref conn, .failed held => if conn = held then some .idle else none
  | .connUnref conn, .ending held => if conn = held then some .released else none
  | .disconnected _, .released => some .closed
  | .enterAccepted, .up conn .control => some (.up conn .requested)
  | .enter _ _, .up conn .requested => some (.up conn .data)
  | .exit _ _, .up conn .data => some (.left conn)
  | .notify _, .up conn use => some (.up conn use)
  | .b2hPut _ _, .up conn .data => some (.up conn .data)
  | .connected _, _ | .connUnref _, _ | .disconnected _, _ | .enterAccepted, _ | .enter _ _, _ | .exit _ _, _
  | .notify _, _ | .b2hPut _ _, _ => none
  | _, stage => some stage

/-- The stage that these observations lead to. -/
def stageOf (log : List Obs) : Option Stage := Monitor.watch Stage.next .idle log

/-- The call is made on a connection. -/
def StackCall.onConnection : StackCall → Bool
  | .scanStart | .scanStop | .connCreate _ _ _ _ _ | .settingsSave _ _ => false
  | _ => true

/-! ## What the queued lines say -/

/-- What the control lines that were queued say of the link. -/
inductive LinkView where
  | down
  | up
deriving DecidableEq, Repr

def LinkView.hear : LinkView → Speech → Option LinkView
  | .down, .connected => some .up
  | .up, .disconnected => some .down
  | .up, .ready | .up, .mtu | .up, .linkParams | .up, .received | .up, .dataModeLeft => some .up
  | .down, .scanResult | .down, .scanComplete => some .down
  | view, .answer | view, .error => some view
  | _, _ => none

def LinkView.next (view : LinkView) (line : Text) : Option LinkView := (speech line).bind view.hear

def Stage.view : Stage → LinkView
  | .up _ _ | .left _ | .ending _ | .released | .closed => .up
  | _ => .down

def Obs.line : Obs → Option Text
  | .ctrlLine line _ => some line
  | _ => none

/-- The control lines that were handed to `queue_ctrl_line`, stored whole or not, the newest first. -/
def controlLines (log : List Obs) : List Text := log.filterMap Obs.line

def Link.view : Link → LinkView
  | .up _ => .up
  | _ => .down

/-! ## The variables -/

def App.use (s : App) : Use :=
  if s.appState = .dataMode then .data else if s.dataModePendingEnter then .requested else .control

def App.stage (s : App) : Stage :=
  match s.link with
  | .down => if s.appState = .scanning then .scanning else .idle
  | .creating conn => .creating conn
  | .up conn => .up conn s.use

end BleAtHost.Main
