import BleAtHost.Main.Control
import BleAtHost.Main.Lemmas.Moves

/-!
# Steps as changes of the control

Every move and every transmit service is a sequence of changes of the control, so an invariant of these holds in
every reachable state.
-/

namespace BleAtHost.Main

open Relation

variable {s s' : App} {env : Env} {report : App → StackReport → Prop}

theorem ProfileManagerState.SameRoute.refl (pm : ProfileManagerState) : pm.SameRoute pm := ⟨rfl, rfl, rfl, rfl, rfl, rfl, id⟩

theorem ProfileManagerState.SameRoute.canEnter {pm pm' : ProfileManagerState} (h : pm.SameRoute pm') :
    profileManagerCanEnterDataMode pm' = profileManagerCanEnterDataMode pm := by
  simp only [profileManagerCanEnterDataMode, h.ready, h.writeFound, h.writeValueHandle, h.writeProperties]

/-- Only the log may differ. -/
theorem Aside.of_log (new : List Obs) (hn : ∀ o ∈ new, Obs.Aside o) (h : s' = { s with log := new ++ s.log }) :
    Aside s s' := by
  subst h
  exact ⟨rfl, rfl, rfl, rfl, rfl, .refl _, rfl, rfl, new, hn, rfl⟩

theorem aside_of_output {o : Obs} (h : o.Output) : o.Aside := by
  cases o with
  | ctrlPut => trivial
  | ctrlLine => trivial
  | b2hPut => trivial
  | _ => exact h.elim

theorem aside_line (s : App) (text : Text) : Aside s (queueCtrlLine s text) := by
  obtain ⟨_, _, new, hn, he⟩ := queueCtrlLine_eq s text
  rw [he]
  exact ⟨rfl, rfl, rfl, rfl, rfl, .refl _, rfl, rfl, new, fun o ho => aside_of_output (hn o ho), rfl⟩

theorem aside_raw (s : App) (data : List Byte) : Aside s (queueCtrlBytes s data) := by
  obtain ⟨_, _, new, hn, he⟩ := queueCtrlBytes_eq s data
  rw [he]
  exact ⟨rfl, rfl, rfl, rfl, rfl, .refl _, rfl, rfl, new, fun o ho => aside_of_output (hn o ho), rfl⟩

theorem aside_payloadInData (s : App) (data : List Byte) : Aside s (queueDataBytes (countPayload s data) data) := by
  obtain ⟨_, _, _, new, hn, he⟩ := queueDataBytes_eq (countPayload s data) data
  rw [he]
  refine ⟨rfl, rfl, rfl, rfl, rfl, .refl _, rfl, rfl, new ++ [.notify data], ?_, by simp [countPayload]⟩
  intro o ho
  rcases List.mem_append.mp ho with ho | ho
  · exact aside_of_output (hn o ho)
  · rw [List.mem_singleton.mp ho]
    trivial

theorem aside_flow (s : App) : Aside s (refreshUartRxFlowControl s) := by
  unfold refreshUartRxFlowControl
  repeat' split
  all_goals exact ⟨rfl, rfl, rfl, rfl, rfl, .refl _, rfl, rfl, [], by simp, rfl⟩

theorem aside_ask (call : StackCall) (h : call.Aside) (s : App) : Aside s (s.ask env call).2 :=
  ⟨rfl, rfl, rfl, rfl, rfl, .refl _, rfl, rfl, [.stack call (env.answer s.calls)], by simpa [Obs.Aside] using h, rfl⟩

theorem aside_settingsSaveOne (s : App) (key : SettingsKey) (value : List Byte) :
    Aside s (settingsSaveOne env s key value).2 := by
  have ha : Aside s (s.ask env (.settingsSave key value)).2 := aside_ask _ (by exact True.intro) s
  simp only [settingsSaveOne]
  split
  · exact { ha with }
  · exact ha

theorem aside_of_streamed {o : Obs} (h : o.Streamed) : o.Aside := by
  cases o with
  | uptime => trivial
  | atRx => trivial
  | dataRx => trivial
  | rx => trivial
  | guard => trivial
  | h2bPut => trivial
  | write => trivial
  | _ => exact h.elim

theorem Streamed.aside (h : Streamed s s') : Aside s s' := by
  obtain ⟨_, _, _, _, _, _, _, _, _, _, _, new, hn, rfl⟩ := h
  exact ⟨rfl, rfl, rfl, rfl, rfl, .refl _, rfl, rfl, new, fun o ho => aside_of_streamed (hn o ho), rfl⟩

abbrev Controls (env : Env) (report : App → StackReport → Prop) : App → App → Prop := ReflTransGen (Control env report)

theorem Control.one (h : Control env report s s') : Controls env report s s' := ReflTransGen.single h

theorem Aside.controls (h : Aside s s') : Controls env report s s' := (Control.aside h).one

theorem Act.controls (h : Act env report s s') : Controls env report s s' := by
  cases h with
  | line text => exact Aside.controls (aside_line s text)
  | raw data => exact Aside.controls (aside_raw s data)
  | payloadInData data => exact Aside.controls (aside_payloadInData s data)
  | payload data =>
      exact Aside.controls (by exact ⟨rfl, rfl, rfl, rfl, rfl, .refl _, rfl, rfl, [.notify data], by simp [Obs.Aside], rfl⟩)
  | callback kind => exact Aside.controls (Aside.of_log [.callback kind] (by simp [Obs.Aside]) rfl)
  | kick =>
      obtain ⟨_, he⟩ := kickUartTx_eq s
      rw [he]
      exact Aside.controls (by exact ⟨rfl, rfl, rfl, rfl, rfl, .refl _, rfl, rfl, [], by simp, rfl⟩)
  | lineState dtr =>
      cases dtr with
      | _ => exact Aside.controls (by exact ⟨rfl, rfl, rfl, rfl, rfl, .refl _, rfl, rfl, [], by simp, rfl⟩)
  | ask call hcall =>
      refine Aside.controls (aside_ask _ ?_ s)
      cases call with
      | settingsSave => exact trivial
      | _ => exact hcall
  | subscribe hn hw => exact (Control.subscribe hn hw).one
  | write conn data hc hr hw => exact (Control.write conn data hc hr hw).one
  | writeWithoutResponse conn data hc hr hw => exact (Control.writeWithoutResponse conn data hc hr hw).one
  | manager pm hpm => exact Aside.controls (by exact ⟨rfl, rfl, rfl, rfl, rfl, hpm, rfl, rfl, [], by simp, rfl⟩)
  | found chrc conn hl hr => exact (Control.found chrc conn hl hr).one
  | readyFound conn hl hn hw => exact (Control.readyFound conn hl hn hw).one
  | subscribed conn hl hr => exact (Control.subscribed conn hl hr).one
  | unsubscribed conn hl hr => exact (Control.unsubscribed conn hl hr).one
  | errorState hc hm => exact (Control.errorState hc hm).one
  | disconnecting conn hc hm => exact (Control.disconnecting conn hc hm).one
  | enterAccepted text he hc hm hp => exact (Control.enterAccepted he hc hm hp).one.tail (.aside (aside_line _ text))
  | cache => exact Aside.controls (by exact ⟨rfl, rfl, rfl, rfl, rfl, .refl _, rfl, rfl, [], by simp, rfl⟩)
  | scanning durationS hc hm => exact (Control.scanning durationS hc hm).one
  | scanTimer hs => exact (Control.scanTimer hs).one
  | scanStopped hs hr => exact (Control.scanStopped hs hr).one
  | scanStuck hs hr => exact (Control.scanStuck hs hr).one
  | create peer hc => exact (Control.create peer hc).one
  | connectFailed err conn hl hc he => exact (Control.connectFailed err conn hl hc he).one
  | opened conn hl hm => exact (Control.opened conn hl hm).one
  | closed conn reason hl hc hpc hr => exact (Control.closed conn reason hl hc hpc hr).one
  | flow => exact Aside.controls (aside_flow s)
  | attMtu => exact Aside.controls (by exact ⟨rfl, rfl, rfl, rfl, rfl, .refl _, rfl, rfl, [], by simp, rfl⟩)
  | profile p => exact (Control.profile p).one
  | config => exact Aside.controls (by exact ⟨rfl, rfl, rfl, rfl, rfl, .refl _, rfl, rfl, [], by simp, rfl⟩)
  | saved key value => exact Aside.controls (aside_settingsSaveOne s key value)

theorem Move.controls (h : Move env report s s') : Controls env report s s' := by
  cases h with
  | act hact => exact hact.controls
  | stream hs => exact hs.aside.controls
  | left now hm hr => exact (Control.left now hm hr).one

theorem Serve.controls (h : Serve s s') : Controls env report s s' := by
  cases h with
  | entered now hp hm hc hz => exact (Control.entered now hp hm hc).one
  | flow => exact Aside.controls (aside_flow s)
  | drained ctrl toHost irq fromCtrl sent =>
      exact Aside.controls
        (by exact ⟨rfl, rfl, rfl, rfl, rfl, .refl _, rfl, rfl, [.fill fromCtrl sent], by simp [Obs.Aside], rfl⟩)
  | stopped => exact Aside.controls (by exact ⟨rfl, rfl, rfl, rfl, rfl, .refl _, rfl, rfl, [], by simp, rfl⟩)

/-! ## Steps and runs -/

theorem step_controls {f : Firmware} {e : Event} (hl : LinkHeld f.app)
    (hr : ∀ r, e.report = some r → report f.app r) :
    Controls env report f.app (step env f e).app :=
  step_kept_served (P := fun s => Controls env report f.app s) (fun hm hs => hs.trans hm.controls)
    (fun hm hs => hs.trans hm.controls) hl hr ReflTransGen.refl

theorem Reachable.linkHeld {f : Firmware} (h : Reachable env f) : LinkHeld f.app := linkHeld_of_linked (h.bridge env).linked

/-- An invariant of the control holds in every reachable state. -/
theorem Reachable.control {P : App → Prop} (hstart : ∀ config started dtr, P (boot config started dtr).app)
    (hstep : ∀ {s s'}, Control env anyReport s s' → P s → P s') {f : Firmware} (h : Reachable env f) : P f.app := by
  obtain ⟨config, started, dtr, es, rfl⟩ := h
  have hrun : ∀ f e, Reachable env f ∧ P f.app → Reachable env (step env f e) ∧ P (step env f e).app := by
    rintro f e ⟨hf, hp⟩
    have hcontrols : Controls env anyReport f.app (step env f e).app := step_controls hf.linkHeld fun _ _ => trivial
    exact ⟨hf.next env e, Runs.invariant (P := P) (fun hab ha => hstep hab ha) hcontrols hp⟩
  exact (Runs.run_invariant (P := fun f => Reachable env f ∧ P f.app) hrun
    ⟨⟨config, started, dtr, [], rfl⟩, hstart config started dtr⟩ es).2

/-! ## What the changes do to the log -/

/-- Anything but the start of a connection is since the connection. -/
theorem sinceConnected_cons {o : Obs} (h : o ≠ .connected 0) (log : List Obs) :
    sinceConnected (o :: log) = o :: sinceConnected log := by
  simp [sinceConnected, h]

theorem sinceConnected_append {new : List Obs} (hn : ∀ o ∈ new, Obs.Aside o) (log : List Obs) :
    sinceConnected (new ++ log) = new ++ sinceConnected log := by
  refine List.takeWhile_append_of_pos fun o ho => decide_eq_true ?_
  rintro rfl
  exact hn _ ho

/-- The end of a connection, with what it leaves in the log. -/
structure ClosedFrom (s s' : App) (conn : Conn) : Prop where
  currentConn : s'.currentConn = none
  pmConn : s'.pm.conn = none
  ready : s'.pm.ready = false
  payloadLen : 0 < s'.pm.payloadLen
  appState : s'.appState = .idle
  dataModePendingEnter : s'.dataModePendingEnter = false
  link : s'.link = .down
  scanStopWork : s'.scanStopWork = s.scanStopWork
  conns : s'.conns = s.conns
  config : s'.config = s.config
  ctrlTxRing : s'.ctrlTxRing = s.ctrlTxRing
  controlDtrReady : s'.controlDtrReady = s.controlDtrReady
  txIrqEnabled : s'.txIrqEnabled = s.txIrqEnabled
  log : ∃ paused reason result,
    s'.log = .clear paused :: .h2bReset :: .disconnected reason :: .connUnref conn ::
      .stack (.gattUnsubscribe conn) result :: s.log

theorem closedFrom {conn : Conn} (hc : s.currentConn = some conn) (hpc : s.pm.conn = some conn) (reason : Nat) :
    ClosedFrom s (closeConnection env s conn reason) conn := by
  simp only [closeConnection]
  by_cases hr : reason ≠ REMOTE_USER_TERM_CONN
  · simp only [if_pos hr, hc, profileManagerHandleDisconnected, hpc, profileManagerReset]
    exact ⟨rfl, rfl, rfl, updatePayloadLen_pos _, rfl, rfl, rfl, rfl, rfl, rfl, rfl, rfl, rfl, _, reason, _, rfl⟩
  · simp only [if_neg hr, hc, profileManagerHandleDisconnected, hpc, profileManagerReset]
    exact ⟨rfl, rfl, rfl, updatePayloadLen_pos _, rfl, rfl, rfl, rfl, rfl, rfl, rfl, rfl, rfl, _, reason, _, rfl⟩

theorem announceReady_cases (s : App) :
    announceReady s =
        { s with pm := { s.pm with ready := true }, appState := .controlReady, log := .callback .ready :: s.log } ∧
          s.appState ≠ .dataMode ∧ s.dataModePendingEnter = false ∨
      announceReady s = { s with pm := { s.pm with ready := true }, log := .callback .ready :: s.log } ∧
        (s.appState = .dataMode ∨ s.dataModePendingEnter) := by
  simp only [announceReady]
  split
  · rename_i hc
    exact .inl ⟨rfl, hc.1, by simpa using hc.2⟩
  · rename_i hc
    refine .inr ⟨rfl, ?_⟩
    by_cases hm : s.appState = .dataMode
    · exact .inl hm
    · exact .inr (by simpa [hm] using hc)

theorem Control.log_suffix (h : Control env report s s') : s.log <:+ s'.log := by
  cases h with
  | aside h =>
      obtain ⟨new, _, hn⟩ := h.log
      rw [hn]; exact List.suffix_append _ _
  | subscribe => exact List.suffix_cons _ _
  | write => exact List.suffix_cons _ _
  | writeWithoutResponse => exact List.suffix_cons _ _
  | readyFound =>
      rcases announceReady_cases s with ⟨he, _⟩ | ⟨he, _⟩
      · rw [he]; exact List.suffix_cons _ _
      · rw [he]; exact List.suffix_cons _ _
  | subscribed =>
      rcases announceReady_cases s with ⟨he, _⟩ | ⟨he, _⟩
      · rw [he]; exact List.suffix_cons _ _
      · rw [he]; exact List.suffix_cons _ _
  | disconnecting => exact List.suffix_cons _ _
  | profile => exact List.suffix_cons _ _
  | enterAccepted => exact List.suffix_cons _ _
  | entered now => exact (List.suffix_cons (.uptime now) s.log).trans (List.suffix_cons _ _)
  | left now =>
      exact ((List.suffix_cons (.uptime now) s.log).trans (List.suffix_cons (.exit now s.hostToBleRing.data) _)).trans
        (List.suffix_cons _ _)
  | scanStopped => exact List.suffix_cons _ _
  | scanStuck => exact List.suffix_cons _ _
  | create peer =>
      simp only [createConnection]
      split
      · exact List.suffix_cons _ _
      · exact List.suffix_cons _ _
  | connectFailed err conn => exact (List.suffix_cons (.connected err) s.log).trans (List.suffix_cons _ _)
  | opened => exact List.suffix_cons _ _
  | closed conn reason hl hc hpc =>
      obtain ⟨_, _, _, hn⟩ := (closedFrom hc hpc reason).log
      rw [hn]
      exact List.suffix_append [_, _, _, _, _] s.log
  | _ => exact List.suffix_refl _

end BleAtHost.Main
