import BleAtHost.Bridge.Lemmas.Link
import BleAtHost.Main.Lemmas.Actions

/-!
# The actions follow the bridge

Every action of the firmware is a sequence of steps of the bridge.
-/

namespace BleAtHost.Main

open Relation

/-- What of the application the bridge shows. -/
def App.bridge (s : App) (chunkLeft : Nat) : Bridge where
  toBle := s.hostToBleRing
  toHost := s.bleToHostRing
  ctrl := s.ctrlTxRing
  mode := s.appState
  pending := s.dataModePendingEnter
  conn := s.currentConn
  pmConn := s.pm.conn
  ready := s.pm.ready
  link := s.link
  paused := s.controlRxPaused
  rxIrq := s.rxIrqEnabled
  escape := s.escapeState
  last := s.lastHostRxTimeMs
  guardTime := s.config.streamGuardTimeMs
  armed := s.escapeGuardWork.isSome
  chunkLeft := chunkLeft
  log := s.log

/-- The bridge can follow from `s` to `s'`, and data mode is not entered on the way. -/
structure Sim (s s' : App) : Prop where
  steps : ReflTransGen Bridge.Step (s.bridge 0) (s'.bridge 0)
  mode : s.appState ≠ .dataMode → s'.appState ≠ .dataMode

variable {s s' : App}

theorem Sim.refl (s : App) : Sim s s := ⟨ReflTransGen.refl, id⟩

theorem Sim.trans {s'' : App} (h : Sim s s') (h' : Sim s' s'') : Sim s s'' :=
  ⟨h.steps.trans h'.steps, fun hm => h'.mode (h.mode hm)⟩

/-- The bridge does not see the difference. -/
theorem Sim.of_eq (h : s'.bridge 0 = s.bridge 0) : Sim s s' := by
  have hm : s'.appState = s.appState := congrArg Bridge.mode h
  exact ⟨by rw [h], by rw [hm]; exact id⟩

theorem Sim.congr_left {t : App} (h : Sim t s') (he : t.bridge 0 = s.bridge 0) : Sim s s' := (Sim.of_eq he).trans h

theorem Sim.of_step (h : Bridge.Step (s.bridge 0) (s'.bridge 0))
    (hm : s.appState ≠ .dataMode → s'.appState ≠ .dataMode) : Sim s s' :=
  ⟨ReflTransGen.single h, hm⟩

/-- One step of the bridge that leaves the mode alone. -/
theorem Sim.of_step_same (h : Bridge.Step (s.bridge 0) (s'.bridge 0)) (hm : s'.appState = s.appState) : Sim s s' :=
  Sim.of_step h (by rw [hm]; exact id)

theorem Sim.ite {c : Prop} [Decidable c] {t u : App} (ht : c → Sim s t) (hu : ¬c → Sim s u) :
    Sim s (if c then t else u) := by
  split
  · rename_i hc; exact ht hc
  · rename_i hc; exact hu hc

theorem sim_note {o : Obs} (h : Bridge.Quiet o) : Sim s (s.note o) := Sim.of_step_same (.quiet h) rfl

theorem sim_ask (env : Env) (call : StackCall) : Sim s (s.ask env call).2 :=
  Sim.of_step_same (.quiet (o := .stack call (env.answer s.calls)) trivial) rfl

theorem sim_setState {newState : AppState} (h : s.appState ≠ .dataMode) (hn : newState ≠ .dataMode) :
    Sim s (setState s newState) :=
  Sim.of_step (.setMode newState h hn) fun _ => hn

/-! ## Output -/

theorem kickUartTx_bridge (s : App) (n : Nat) : (kickUartTx s).bridge n = s.bridge n := by
  unfold kickUartTx
  split
  · rfl
  · rfl

theorem queueCtrlBytes_bridge {data : List Byte} (h : data ≠ []) :
    (queueCtrlBytes s data).bridge 0 = (s.bridge 0).putCtrl data := by
  simp only [queueCtrlBytes, h, ↓reduceIte, kickUartTx_bridge]
  rfl

theorem queueCtrlLine_bridge {s : App} {line : Text} (h : line ≠ []) :
    (queueCtrlLine s line).bridge 0 =
      (((s.bridge 0).putCtrl line).putCtrl newline).note
        (.ctrlLine line (line.length + newline.length ≤ s.ctrlTxRing.spaceGet)) := by
  have hn : newline ≠ [] := by decide
  rw [← queueCtrlBytes_bridge h, ← queueCtrlBytes_bridge hn]
  rfl

theorem sim_queueCtrlBytes (data : List Byte) (h : MayQueue s) :
    Sim s (queueCtrlBytes s data) ∧ MayQueue (queueCtrlBytes s data) := by
  by_cases hd : data = []
  · simp only [queueCtrlBytes, hd, ↓reduceIte]
    exact ⟨Sim.refl s, h⟩
  · have he := queueCtrlBytes_bridge (s := s) hd
    have hm : (queueCtrlBytes s data).appState = s.appState := congrArg Bridge.mode he
    refine ⟨Sim.of_step_same (by rw [he]; exact .putCtrl data h) hm, ?_⟩
    intro hd'
    obtain ⟨kind, hk⟩ := h (hm ▸ hd')
    have hlog : (queueCtrlBytes s data).log = .ctrlPut data (data.take s.ctrlTxRing.spaceGet) :: s.log :=
      congrArg Bridge.log he
    exact ⟨kind, by simp [hlog, hk]⟩

theorem queueCtrlBytes_ctrlTxRing (s : App) (data : List Byte) :
    (queueCtrlBytes s data).ctrlTxRing = (s.ctrlTxRing.put data).2 := by
  by_cases hd : data = []
  · subst hd
    exact RingBuf.ext_fields (by simp [queueCtrlBytes]) rfl rfl
  · exact congrArg Bridge.ctrl (queueCtrlBytes_bridge hd)

theorem sim_queueCtrlLine (line : Text) (h : MayQueue s) : Sim s (queueCtrlLine s line) := by
  obtain ⟨h1, hq1⟩ := sim_queueCtrlBytes line h
  obtain ⟨h2, _⟩ := sim_queueCtrlBytes newline hq1
  refine (h1.trans h2).trans (Sim.of_step_same (.ctrlLine line _ ?_) rfl)
  -- a whole line ends in the stored newline
  intro hw
  have hw : line.length + newline.length ≤ s.ctrlTxRing.spaceGet := by simpa using hw
  have hdata : (queueCtrlBytes (queueCtrlBytes s line) newline).ctrlTxRing.data =
      (s.ctrlTxRing.put line).2.data ++ newline := by
    rw [queueCtrlBytes_ctrlTxRing, queueCtrlBytes_ctrlTxRing, RingBuf.put_data _ newline,
      List.take_of_length_le (by rw [RingBuf.put_spaceGet]; omega)]
  intro he
  change (queueCtrlBytes (queueCtrlBytes s line) newline).ctrlTxRing.data = [] at he
  rw [hdata] at he
  exact absurd (List.append_eq_nil_iff.mp he).2 (by decide)

theorem sim_queueCtrlLine_of_not (line : Text) (h : s.appState ≠ .dataMode) : Sim s (queueCtrlLine s line) :=
  sim_queueCtrlLine line (mayQueue_of_not h)

theorem sim_kickUartTx (s : App) : Sim s (kickUartTx s) := Sim.of_eq (kickUartTx_bridge s 0)

theorem queueDataBytes_bridge {data : List Byte} (h : data ≠ []) :
    (queueDataBytes s data).bridge 0 = (s.bridge 0).putToHost data := by
  simp only [queueDataBytes, h, ↓reduceIte, kickUartTx_bridge]
  rfl

theorem sim_payloadInData {data : List Byte} (h : s.appState = .dataMode) :
    Sim s (queueDataBytes (countPayload s data) data) := by
  have hnotify : Bridge.Step (s.bridge 0) ((s.bridge 0).notify data) := .notify data
  by_cases hd : data = []
  · rw [Bridge.notify_of_not data fun _ => hd] at hnotify
    have hnone : queueDataBytes (countPayload s data) data = countPayload s data := by simp [queueDataBytes, hd]
    rw [hnone]
    exact Sim.of_step_same hnotify rfl
  · have he := queueDataBytes_bridge (s := countPayload s data) hd
    rw [Bridge.notify_of_dataMode h hd] at hnotify
    exact Sim.of_step_same (by rw [he]; exact hnotify) (congrArg Bridge.mode he)

theorem sim_setReady {ready : Bool} {conn : Conn} (h : s.link = .up conn) :
    Sim s { s with pm := { s.pm with ready := ready } } :=
  Sim.of_step_same (.setReady ready conn h) rfl

theorem sim_announceReady {conn : Conn} (h : s.link = .up conn) : Sim s (announceReady s) := by
  have hready : Sim s { s with pm := { s.pm with ready := true } } := sim_setReady h
  have hcall : Sim s { s with pm := { s.pm with ready := true }, log := .callback .ready :: s.log } :=
    hready.trans (sim_note (o := .callback .ready) trivial)
  simp only [announceReady]
  split
  · rename_i hc
    exact hcall.trans (sim_setState hc.1 (by simp))
  · exact hcall

theorem matchCharacteristic_conn (profile : BleProfile) (pm : ProfileManagerState) (chrc : GattChrc) :
    (matchCharacteristic profile pm chrc).conn = pm.conn ∧ (matchCharacteristic profile pm chrc).ready = pm.ready := by
  unfold matchCharacteristic
  dsimp only
  repeat' split
  all_goals exact ⟨rfl, rfl⟩

theorem bridge_ite (c : Prop) [Decidable c] (t u : App) (n : Nat) :
    (if c then t else u).bridge n = if c then t.bridge n else u.bridge n := apply_ite (App.bridge · n) c t u

theorem refresh_bridge (s : App) (n : Nat) : (refreshUartRxFlowControl s).bridge n = (s.bridge n).refresh := by
  simp only [refreshUartRxFlowControl, bridge_ite]
  rfl

theorem sim_refresh (s : App) : Sim s (refreshUartRxFlowControl s) := by
  have he := refresh_bridge s 0
  refine Sim.of_step_same (by rw [he]; exact .refresh) ?_
  exact (congrArg Bridge.mode he).trans (Bridge.refresh_mode _)

section
variable (env : Env)

theorem sim_settingsSaveOne (s : App) (key : SettingsKey) (value : List Byte) :
    Sim s (settingsSaveOne env s key value).2 := by
  have ha := sim_ask (s := s) env (.settingsSave key value)
  simp only [settingsSaveOne]
  split
  · exact ha.trans (Sim.of_eq rfl)
  · exact ha

theorem sim_createConnection (h : s.currentConn = none) (peer : BtAddrLe) :
    Sim s (createConnection env s peer).2 := by
  have ha := sim_ask (s := s) env
    (.connCreate ⟨s.conns, peer⟩ s.config.connIntervalMin s.config.connIntervalMax s.config.latency s.config.timeout)
  dsimp only [createConnection]
  split
  · refine ha.trans (Sim.of_eq ?_)
    simp only [App.bridge, App.ask, h]
  · refine ha.trans (Sim.of_step ?_ fun _ => by simp [setState])
    exact .create ⟨s.conns, peer⟩ h

/-- The end of a connection: the stack forgets the subscription, the reference is given up, then the bridge
disconnects. -/
theorem closeConnection_bridge {conn : Conn} (hc : s.currentConn = some conn) (hpc : s.pm.conn = some conn)
    (reason : Nat) :
    (closeConnection env s conn reason).bridge 0 =
      (((s.ask env (.gattUnsubscribe conn)).2.note (.connUnref conn)).bridge 0).disconnect reason := by
  simp only [closeConnection]
  by_cases hr : reason ≠ REMOTE_USER_TERM_CONN
  · simp only [if_pos hr, hc, profileManagerHandleDisconnected, hpc, profileManagerReset]
    rfl
  · simp only [if_neg hr, hc, profileManagerHandleDisconnected, hpc, profileManagerReset]
    rfl

theorem sim_closeConnection {conn : Conn} (h : s.link = .up conn) (hc : s.currentConn = some conn)
    (hpc : s.pm.conn = some conn) (reason : Nat) : Sim s (closeConnection env s conn reason) := by
  have hasks : Sim s ((s.ask env (.gattUnsubscribe conn)).2.note (.connUnref conn)) :=
    (sim_ask env (.gattUnsubscribe conn)).trans (sim_note trivial)
  refine hasks.trans (Sim.of_step ?_ fun _ => by simp [closeConnection, setState])
  rw [closeConnection_bridge env hc hpc]
  exact .disconnect reason conn h

end

/-! ## Every action -/

theorem Act.sim {env : Env} {report : App → StackReport → Prop} (h : Act env report s s') : Sim s s' := by
  cases h with
  | line text h => exact sim_queueCtrlLine text h
  | raw data h => exact (sim_queueCtrlBytes data (mayQueue_of_not h)).1
  | payloadInData data h => exact sim_payloadInData h
  | payload data h =>
      have hnotify : Bridge.Step (s.bridge 0) ((s.bridge 0).notify data) := .notify data
      rw [Bridge.notify_of_not data fun hm => absurd hm h] at hnotify
      exact Sim.of_step_same hnotify rfl
  | callback kind => exact sim_note trivial
  | kick => exact sim_kickUartTx s
  | lineState dtr =>
      cases dtr with
      | false => exact Sim.of_eq rfl
      | true => exact Sim.congr_left (sim_kickUartTx { s with controlDtrReady := true }) rfl
  | ask call => exact sim_ask env call
  | subscribe => exact sim_ask env _
  | write => exact sim_ask env _
  | writeWithoutResponse => exact sim_ask env _
  | manager pm h => exact Sim.of_eq (by simp only [App.bridge, h.conn, h.ready])
  | found chrc conn h =>
      obtain ⟨hc, hr⟩ := matchCharacteristic_conn s.config.activeProfile s.pm chrc
      exact Sim.of_eq (by simp only [App.bridge, hc, hr])
  | readyFound conn h => exact sim_announceReady h
  | subscribed conn h => exact sim_announceReady h
  | unsubscribed conn h => exact sim_setReady h
  | errorState hc hm => exact sim_setState hm (by simp)
  | disconnecting conn hc hm => exact (sim_setState hm (by simp)).trans (sim_ask env _)
  | enterAccepted text he hc hm hp =>
      have hr : s.pm.ready = true := by
        simp only [profileManagerCanEnterDataMode, Bool.and_eq_true] at he
        exact he.1.1.1
      have haccepted : Sim s { s with dataModePendingEnter := true, log := .enterAccepted :: s.log } :=
        Sim.of_step_same (.enterAccepted hr hc hm hp) rfl
      exact haccepted.trans (sim_queueCtrlLine_of_not text hm)
  | cache => exact Sim.of_eq rfl
  | scanning durationS hc hm =>
      have hset : Sim s (setState s .scanning) := sim_setState hm (by simp)
      exact hset.trans (Sim.of_eq rfl)
  | scanTimer => exact Sim.of_eq rfl
  | scanStopped h =>
      have hm : s.appState ≠ .dataMode := by rw [h]; simp
      have ha : Sim s ({ s with scanStopWork := none }.ask env .scanStop).2 := Sim.congr_left (sim_ask env .scanStop) rfl
      exact ha.trans (sim_setState (ha.mode hm) (restState_ne_dataMode s))
  | scanStuck => exact Sim.congr_left (sim_ask env .scanStop) rfl
  | create peer hc => exact sim_createConnection env hc peer
  | connectFailed err conn h =>
      have hfail : Sim s { s with link := .down, currentConn := none, appState := .idle, log := .connected err :: s.log } :=
        Sim.of_step (.connectFailed err conn h) fun _ => by simp
      exact hfail.trans (sim_note (o := .connUnref conn) trivial)
  | opened conn h hm => exact Sim.of_step (.connectOk conn h) fun _ => by simp
  | closed conn reason h hc hpc => exact sim_closeConnection env h hc hpc reason
  | flow => exact sim_refresh s
  | attMtu => exact Sim.of_eq rfl
  | profile profile =>
      have hset : Sim s { s with config := { s.config with activeProfile := profile } } := Sim.of_eq rfl
      exact hset.trans (sim_note (o := .profile s.config.activeProfile profile s.pm.writeFound) trivial)
  | config => exact Sim.of_eq rfl
  | saved key value => exact sim_settingsSaveOne env s key value

theorem Acts.sim {env : Env} {report : App → StackReport → Prop} (h : Acts env report s s') : Sim s s' := by
  induction h with
  | refl => exact Sim.refl s
  | tail _ hact ih => exact ih.trans hact.sim

end BleAtHost.Main
