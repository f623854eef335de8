import BleAtHost.Main.Lemmas.Findings

/-!
# Handlers and the scan cache

Only reports and starts of a scan touch the cache, the filter and the announcements. Everything else leaves them alone,
since no other line begins like a scan result.
-/

namespace BleAtHost.Main

open Relation

variable {s s' : App} {env : Env}

/-! ## Lines -/

/-- The line of a scan result is announced and changes nothing else. -/
theorem scanView_queueScanLine {line : Text} (h : isScanLine line = true) (s : App) :
    (queueCtrlLine s line).scanView = { s.scanView with announced := line :: s.scanView.announced } := by
  have hputs : (queueCtrlBytes (queueCtrlBytes s line) newline).scanView = s.scanView := by
    apply scanView_of_findings
    rw [findings_queueCtrlBytes, findings_queueCtrlBytes]
  unfold queueCtrlLine
  dsimp only
  rw [← hputs]
  have hannounced : ∀ (log : List Obs) (whole : Bool), announced (.ctrlLine line whole :: log) = line :: announced log := by
    intro log whole
    rw [announced, if_pos h]
  simp only [App.note, App.scanView, hannounced]
  rfl

theorem scanView_queueCtrlLine {line : Text} (h : isScanLine line = false) (s : App) :
    (queueCtrlLine s line).scanView = s.scanView := scanView_of_findings (findings_queueCtrlLine h s)

theorem scanView_profileError (s : App) : (profileError s).scanView = s.scanView :=
  scanView_of_findings (findings_profileError s)

theorem scanView_profileReady (s : App) : (profileReady s).scanView = s.scanView :=
  scanView_of_findings (findings_profileReady s)

theorem scanView_functionError (s : App) : (atHostNotifyFunctionError s).scanView = s.scanView :=
  scanView_of_findings (findings_functionError s)

theorem scanView_ite {c : Prop} [Decidable c] {t u : App} (ht : t.scanView = s.scanView) (hu : u.scanView = s.scanView) :
    (if c then t else u).scanView = s.scanView := by
  split
  · exact ht
  · exact hu

/-! ## The connection -/

theorem scanView_subscribeHandler (s : App) (err : Nat) : (subscribeHandler s err).scanView = s.scanView := by
  unfold subscribeHandler
  apply scanView_ite
  · rw [scanView_profileError]
    rfl
  · rw [scanView_profileReady]
    rfl

theorem scanView_characteristicDiscoverCb (s : App) (attr : Option GattChrc) :
    (characteristicDiscoverCb env s attr).scanView = s.scanView := by
  have hsubscribe : (subscribeNotifyCharacteristic env s).2.scanView = s.scanView := by
    have hask : (s.ask env (.gattSubscribe s.pm.conn s.pm.notifyValueHandle)).2.scanView = s.scanView :=
      scanView_ask (by simp) s
    simp only [subscribeNotifyCharacteristic]
    split
    · exact (scanView_profileError _).trans hask
    · exact hask
  unfold characteristicDiscoverCb
  split
  · apply scanView_ite (scanView_profileError s)
    apply scanView_ite (scanView_profileError s)
    apply scanView_ite hsubscribe
    rw [scanView_profileReady]
    rfl
  · exact scanView_ite (scanView_profileError s) rfl

theorem scanView_serviceDiscoverCb (s : App) (attr : Option GattService) :
    (serviceDiscoverCb env s attr).scanView = s.scanView := by
  have hstart : (startCharacteristicDiscovery env s).2.scanView = s.scanView := by
    simp only [startCharacteristicDiscovery]
    split
    · rw [scanView_profileError]
      exact scanView_ask (by simp) _
    · exact scanView_ask (by simp) _
  unfold serviceDiscoverCb
  split
  · exact scanView_ite (scanView_profileError s) hstart
  · exact scanView_ite (scanView_profileError s) (scanView_ite rfl rfl)

theorem scanView_profileManagerReset (s : App) : (profileManagerReset env s).scanView = s.scanView := by
  unfold profileManagerReset
  cases s.pm.conn with
  | none => rfl
  | some conn => rfl

theorem scanView_profileManagerStart (s : App) (conn : Conn) : (profileManagerStart env s conn).2.scanView = s.scanView := by
  have hreset : (profileManagerReset env s).scanView = s.scanView := scanView_profileManagerReset s
  simp only [profileManagerStart]
  split
  · rw [scanView_profileError, scanView_ask (by simp)]
    exact hreset
  · rw [scanView_ask (by simp)]
    exact hreset

theorem scanView_connected (s : App) (conn : Conn) (err : Nat) : (connected env s conn err).scanView = s.scanView := by
  have hdataLen : ∀ t : App, (profileManagerRequestDataLen env t).2.scanView = t.scanView := fun t =>
    scanView_of_findings (findings_profileManagerRequestDataLen t)
  have hphy : ∀ t : App, (profileManagerRequestPhy env t).2.scanView = t.scanView := fun t =>
    scanView_of_findings (findings_profileManagerRequestPhy t)
  have hmtu : ∀ t : App, (profileManagerRequestMtu env t).2.scanView = t.scanView := fun t =>
    scanView_of_findings (findings_profileManagerRequestMtu t)
  have hwhen : ∀ {u : App} {f : App → Int × App} (c : Bool), (∀ t, (f t).2.scanView = t.scanView) →
      u.scanView = s.scanView → (if c then (f u).2 else u).scanView = s.scanView := by
    intro u f c hf hu
    split
    · rw [hf, hu]
    · exact hu
  simp only [connected]
  split
  · rw [scanView_functionError]
    simp only [App.note]
    split
    · rfl
    · rfl
  · have hline : ∀ t : App, (atHostNotifyConnected t).scanView = t.scanView := scanView_queueCtrlLine (by decide)
    generalize ht : atHostNotifyConnected (setState { s.note (.connected err) with link := .up conn } .connecting) = t
    have hsame : t.scanView = s.scanView := by
      rw [← ht, hline]
      rfl
    have hstart : (profileManagerStart env t conn).2.scanView = s.scanView :=
      (scanView_profileManagerStart t conn).trans hsame
    split
    · exact (scanView_functionError _).trans hstart
    · exact hwhen _ hphy (hwhen _ hdataLen (hwhen _ hmtu hstart))

theorem scanView_disconnected (s : App) (conn : Conn) (reason : Nat) :
    (disconnected env s conn reason).scanView = s.scanView := by
  have hline : ∀ t : App, (atHostNotifyDisconnected t).scanView = t.scanView := scanView_queueCtrlLine (by decide)
  have hcleared : (closeConnection env s conn reason).scanView = s.scanView := by
    have hlost : ∀ t : App, (profileManagerHandleDisconnected env t conn).scanView = t.scanView := by
      intro t
      unfold profileManagerHandleDisconnected
      exact scanView_ite (scanView_profileManagerReset t) rfl
    have hclear : ∀ t : App, (setState (clearDataModeSession
        { t with hostToBleRing := .empty, log := .h2bReset :: .disconnected reason :: t.log } false) .idle).scanView =
          t.scanView := fun t => rfl
    have hcount : (if reason ≠ REMOTE_USER_TERM_CONN then
          { s with
            link := .down
            streamStats :=
              { s.streamStats with
                unexpectedDisconnectCount := addU32 s.streamStats.unexpectedDisconnectCount 1 } }
        else { s with link := .down }).scanView = s.scanView := scanView_ite rfl rfl
    unfold closeConnection
    dsimp only
    refine (hclear _).trans (scanView_ite ?_ hcount)
    exact (hlost _).trans hcount
  change (refreshUartRxFlowControl (atHostNotifyDisconnected (closeConnection env s conn reason))).scanView = _
  rw [scanView_of_findings (findings_refresh _), hline, hcleared]

/-! ## Scanning and the AT commands -/

/-- A start of a scan that gets as far as the radio empties the cache. -/
def ScanView.restarted (v v' : ScanView) : Prop :=
  v'.devices = List.replicate MAX_SCANNED_DEVICES .zero ∧ v'.next = 0 ∧ v'.announced = [] ∧ v.starts < v'.starts

theorem scanView_opStartScan (s : App) (durationS : Nat) (filterName : Option Text) :
    (opStartScan env s durationS filterName).2.scanView = s.scanView ∨
      s.scanView.restarted (opStartScan env s durationS filterName).2.scanView := by
  have hasked : s.scanView.restarted
      ({ clearScanCache s with
        scanFilterName := snprintk BLE_HOST_SCAN_FILTER_MAX_LEN (filterName.getD []) }.ask env .scanStart).2.scanView :=
    ⟨rfl, rfl, rfl, Nat.lt_of_lt_of_eq (Nat.lt_succ_self _) (scanStarts_start (env.answer s.calls) s.log).symm⟩
  unfold opStartScan
  split; · exact .inl rfl
  split; · exact .inl rfl
  split; · exact .inl rfl
  dsimp only
  split
  · exact .inr hasked
  · exact .inr hasked

/-- As before, or after one or more starts of a scan. -/
def ScanView.Onward (v v' : ScanView) : Prop := v' = v ∨ v.restarted v'

theorem ScanView.Onward.trans {v v' v'' : ScanView} (h : v.Onward v') (h' : v'.Onward v'') : v.Onward v'' := by
  rcases h' with rfl | ⟨hd, hn, ha, hs⟩
  · exact h
  · rcases h with rfl | ⟨_, _, _, hs'⟩
    · exact .inr ⟨hd, hn, ha, hs⟩
    · exact .inr ⟨hd, hn, ha, Nat.lt_trans hs' hs⟩

section
variable (env)

theorem kept_scanView (v : ScanView) : AtHost.KeptByAnswers (atOps env) atTx fun s => v.Onward s.scanView where
  startScan durationS filterName h := h.trans (scanView_opStartScan _ durationS filterName)
  connect mac addrType h := by
    change v.Onward (opConnect env _ mac addrType).2.scanView
    rwa [scanView_of_findings (findings_opConnect _ _ _)]
  disconnect connIndex h := by
    change v.Onward (opDisconnect env _ connIndex).2.scanView
    rwa [scanView_of_findings (findings_opDisconnect _ _)]
  sendPayload connIndex data h := by
    change v.Onward (opSendPayload env _ connIndex data).2.scanView
    unfold opSendPayload
    split
    · exact h
    · rwa [scanView_of_findings (findings_profileManagerSend _ _)]
  getStatus h := by
    change v.Onward (opGetStatus env _).2.scanView
    unfold opGetStatus
    split
    · exact h
    · exact h
  getProfile h := h
  setProfile service notify write h := by
    change v.Onward (opSetProfile env _ service notify write).2.scanView
    rwa [scanView_of_findings (findings_opSetProfile _ _ _ _)]
  setMtu mtu h := by
    change v.Onward (opSetMtu env _ mtu).2.scanView
    rwa [scanView_of_findings (findings_opSetMtu _ _)]
  getMtu h := h
  requestMtu connIndex h := by
    change v.Onward (opRequestMtu env _ connIndex).2.scanView
    unfold opRequestMtu
    split
    · exact h
    · rwa [scanView_of_findings (findings_profileManagerRequestMtu _)]
  setConnParams connIndex minInterval maxInterval latency timeout h := by
    change v.Onward (opSetConnParams env _ connIndex minInterval maxInterval latency timeout).2.scanView
    rwa [scanView_of_findings (findings_opSetConnParams _ _ _ _ _ _)]
  enterDataMode connIndex text ht h := by
    change v.Onward (queueCtrlLine (opEnterDataMode _ connIndex).2 text).scanView
    rw [scanView_queueCtrlLine (not_isScanLine_answer ht)]
    unfold opEnterDataMode
    repeat' split
    all_goals exact h
  getStreamStats h := h
  line text ht h := by
    change v.Onward (queueCtrlLine _ text).scanView
    rwa [scanView_queueCtrlLine (not_isScanLine_answer ht)]
  raw data h := by
    change v.Onward (queueCtrlBytes _ data).scanView
    rwa [scanView_of_findings (findings_queueCtrlBytes _ _)]

/-! ## Events -/

theorem scanView_controlUartIsr (f : Firmware) (tx : Option (Int × Int)) (rx : Option (List RxByte)) :
    f.app.scanView.Onward (controlUartIsr env f tx rx).app.scanView := by
  have htx : (controlUartIsrTx f tx).app.scanView = f.app.scanView := scanView_of_findings (findings_controlUartIsrTx f tx)
  simp only [controlUartIsr]
  generalize controlUartIsrTx f tx = g at htx ⊢
  rw [← htx]
  split
  · split
    · simp only [controlUartIsrRx]
      split; · exact .inl rfl
      split; · exact .inl rfl
      split
      · have hrx : ∀ (o : Obs) (data : List RxByte), o.isScan = false →
            (handleDataModeRx (g.app.note o) data).scanView = g.app.scanView := by
          intro o data ho
          rw [scanView_of_findings (streamed_handleDataModeRx (g.app.note o) data).findings, scanView_note ho]
        exact .inl (hrx _ _ rfl)
      · have hkept : ∀ bytes : List Byte, g.app.scanView.Onward
            (AtHost.atHostRxBytes (atOps env) atTx ⟨g.host, g.app.note (.atRx bytes), g.trace⟩ bytes).ctx.scanView :=
          fun bytes => (kept_scanView env g.app.scanView).atHostRxBytes
            (w := ⟨g.host, g.app.note (.atRx bytes), g.trace⟩) bytes (.inl rfl)
        exact hkept _
    · exact .inl rfl
  · exact .inl rfl

def Event.isReport : Event → Bool
  | .deviceFound _ _ _ _ => true
  | _ => false

theorem scanView_whileUp {g : App → App} (s : App) (h : (g s).scanView = s.scanView) : (whileUp s g).scanView = s.scanView := by
  unfold whileUp
  split
  · exact h
  · rfl

theorem scanView_step (f : Firmware) {e : Event} (h : e.isReport = false) :
    f.app.scanView.Onward (step env f e).app.scanView := by
  cases e with
  | uart tx rx => exact scanView_controlUartIsr env f tx rx
  | deviceFound => cases h
  | lineState dtr => exact .inl (scanView_of_findings (findings_usbMessageCb f.app dtr))
  | bleWriteWork =>
      exact .inl (scanView_of_findings (findings_ite (findings_bleWriteLoop _ { f.app with bleWriteWork := false }) rfl))
  | bleWriteRetryWork => exact .inl (scanView_of_findings (findings_ite rfl rfl))
  | bleWriteCoalesceWork => exact .inl (scanView_of_findings (findings_ite rfl rfl))
  | escapeGuardWork now =>
      exact .inl (scanView_of_findings
        (findings_ite (findings_escapeGuardWorkHandler { f.app with escapeGuardWork := none } now) rfl))
  | scanStopWork =>
      exact .inl (scanView_of_findings
        (findings_ite (findings_stopScanInternal { f.app with scanStopWork := none } true) rfl))
  | connected err =>
      refine .inl ?_
      simp only [step, stepApp]
      split
      · exact scanView_connected f.app _ err
      · rfl
  | disconnected reason =>
      refine .inl ?_
      simp only [step, stepApp]
      split
      · exact scanView_disconnected f.app _ reason
      · rfl
  | leParamUpdated interval latency timeout =>
      refine .inl ?_
      simp only [step, stepApp]
      split
      · exact scanView_of_findings (findings_leParamUpdated f.app _ interval latency timeout)
      · rfl
  | attMtu mtu => exact .inl rfl
  | serviceDiscover attr => exact .inl (scanView_whileUp f.app (scanView_serviceDiscoverCb f.app attr))
  | characteristicDiscover attr => exact .inl (scanView_whileUp f.app (scanView_characteristicDiscoverCb f.app attr))
  | subscribe err => exact .inl (scanView_whileUp f.app (scanView_subscribeHandler f.app err))
  | notify data =>
      refine .inl (scanView_whileUp f.app ?_)
      cases data with
      | none => rfl
      | some data => exact scanView_of_findings (findings_profilePayloadReceived f.app data)
  | exchange err => exact .inl (scanView_whileUp f.app (scanView_of_findings (findings_exchangeHandler f.app err)))
  | write err => exact .inl (scanView_whileUp f.app (scanView_of_findings (findings_writeHandler f.app err)))

end

end BleAtHost.Main
