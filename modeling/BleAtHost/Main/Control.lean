import BleAtHost.Main.Actions

/-!
# The control of the firmware

Connections, scanning, the profile manager and the application state, without the bytes that pass through. The
invariants of this part go over the changes of `Control`.
-/

namespace BleAtHost.Main

/-- Calls on which nothing of the control depends. -/
def StackCall.Aside : StackCall → Prop
  | .scanStart | .connParamUpdate _ _ _ _ _ | .dataLenUpdate _ | .phyUpdate _ | .gattDiscover _ _ _ _
  | .gattUnsubscribe _ | .gattExchangeMtu _ | .settingsSave _ _ => True
  | _ => False

def Obs.Aside : Obs → Prop
  | .stack call _ => call.Aside
  | .connUnref _ | .connected _ | .disconnected _ | .profile _ _ _ | .enterAccepted | .enter _ _ | .exit _ _ => False
  | _ => True

/-- The control sees no difference. -/
structure Aside (s s' : App) : Prop where
  currentConn : s'.currentConn = s.currentConn
  scanStopWork : s'.scanStopWork = s.scanStopWork
  dataModePendingEnter : s'.dataModePendingEnter = s.dataModePendingEnter
  appState : s'.appState = s.appState
  activeProfile : s'.config.activeProfile = s.config.activeProfile
  route : s.pm.SameRoute s'.pm
  link : s'.link = s.link
  conns : s'.conns = s.conns
  log : ∃ new, (∀ o ∈ new, Obs.Aside o) ∧ s'.log = new ++ s.log

section
variable (env : Env) (report : App → StackReport → Prop)

inductive Control : App → App → Prop
  | aside {s s' : App} (h : Aside s s') : Control s s'
  -- the profile manager
  | subscribe {s : App} (hn : s.pm.notifyFound) (hw : s.pm.writeFound) :
      Control s (s.ask env (.gattSubscribe s.pm.conn s.pm.notifyValueHandle)).2
  | write {s : App} (conn : Conn) (data : List Byte) (hc : s.pm.conn = some conn) (hr : s.pm.ready)
      (hw : s.pm.writeFound) : Control s (s.ask env (.gattWrite conn s.pm.writeValueHandle data)).2
  | writeWithoutResponse {s : App} (conn : Conn) (data : List Byte) (hc : s.pm.conn = some conn) (hr : s.pm.ready)
      (hw : s.pm.writeFound) : Control s (s.ask env (.gattWriteWithoutResponse conn s.pm.writeValueHandle data)).2
  | found {s : App} (chrc : GattChrc) (conn : Conn) (h : s.link = .up conn) (hr : report s (.characteristic chrc)) :
      Control s { s with pm := matchCharacteristic s.config.activeProfile s.pm chrc }
  | readyFound {s : App} (conn : Conn) (h : s.link = .up conn) (hn : s.pm.notifyFound) (hw : s.pm.writeFound) :
      Control s (announceReady s)
  | subscribed {s : App} (conn : Conn) (h : s.link = .up conn) (hr : report s (.subscription true)) : Control s (announceReady s)
  | unsubscribed {s : App} (conn : Conn) (h : s.link = .up conn) (hr : report s (.subscription false)) :
      Control s { s with pm := { s.pm with ready := false } }
  | profile {s : App} (profile : BleProfile) : Control s (replaceProfile s profile)
  -- the application state
  | errorState {s : App} (hc : s.currentConn.isSome) (hm : s.appState ≠ .dataMode) :
      Control s (setState s .controlReady)
  | disconnecting {s : App} (conn : Conn) (hc : s.currentConn = some conn) (hm : s.appState ≠ .dataMode) :
      Control s ((setState s .disconnecting).ask env (.connDisconnect conn)).2
  | enterAccepted {s : App} (he : profileManagerCanEnterDataMode s.pm) (hc : s.currentConn ≠ none)
      (hm : s.appState ≠ .dataMode) (hp : s.dataModePendingEnter = false) :
      Control s { s with dataModePendingEnter := true, log := .enterAccepted :: s.log }
  | entered {s : App} (now : Int) (hp : s.dataModePendingEnter) (hm : s.appState ≠ .dataMode)
      (hc : s.currentConn ≠ none) : Control s (enterDataModeNow s now)
  | left {s : App} (now : Int) (h : s.appState = .dataMode) (hr : report s .guardTimer) :
      Control s (leaveDataMode s now)
  -- scanning
  | scanning {s : App} (durationS : Nat) (hc : s.currentConn = none) (hm : s.appState ≠ .dataMode) :
      Control s { setState s .scanning with scanStopWork := s.scanStopWork.or (some durationS) }
  | scanTimer {s : App} (h : s.appState ≠ .scanning) : Control s { s with scanStopWork := none }
  | scanStopped {s : App} (h : s.appState = .scanning) (hr : env.answer s.calls = 0 ∨ env.answer s.calls = -EALREADY) :
      Control s (setState ({ s with scanStopWork := none }.ask env .scanStop).2 s.restState)
  | scanStuck {s : App} (h : s.appState = .scanning)
      (hr : ¬(env.answer s.calls = 0 ∨ env.answer s.calls = -EALREADY)) :
      Control s ({ s with scanStopWork := none }.ask env .scanStop).2
  -- the connection
  | create {s : App} (peer : BtAddrLe) (hc : s.currentConn = none) : Control s (createConnection env s peer).2
  | connectFailed {s : App} (err : Nat) (conn : Conn) (h : s.link = .creating conn) (hc : s.currentConn = some conn)
      (he : err ≠ 0) :
      Control s
        { s with
          link := .down
          currentConn := none
          appState := .idle
          log := .connUnref conn :: .connected err :: s.log }
  | opened {s : App} (conn : Conn) (h : s.link = .creating conn) (hm : s.appState ≠ .dataMode) :
      Control s
        { s with
          link := .up conn
          appState := .connecting
          pm := { s.pm.cleared with conn := some conn }
          log := .connected 0 :: s.log }
  | closed {s : App} (conn : Conn) (reason : Nat) (h : s.link = .up conn) (hc : s.currentConn = some conn)
      (hpc : s.pm.conn = some conn) (hr : report s .lost) : Control s (closeConnection env s conn reason)

end

end BleAtHost.Main
