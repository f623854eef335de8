import BleAtHost.Main.Lemmas.Findings

/-!
# Handlers and the discovery

Only the callbacks of the discovery, the start and the end of a connection and the end of the subscription touch what the
profile manager holds of the database. Everything else leaves it alone.
-/

namespace BleAtHost.Main

open Relation

variable {s s' : App} {env : Env}

/-! ## Lines -/

/-- Also the line of a scan result. -/
theorem discovery_queueCtrlLine (s : App) (line : Text) : (queueCtrlLine s line).discovery = s.discovery := by
  have hputs : (queueCtrlBytes (queueCtrlBytes s line) newline).findings = s.findings := by
    rw [findings_queueCtrlBytes, findings_queueCtrlBytes]
  unfold queueCtrlLine
  dsimp only
  rw [discovery_note rfl]
  exact discovery_of_findings hputs

theorem discovery_profileReady (s : App) : (profileReady s).discovery = s.discovery :=
  discovery_of_findings (findings_profileReady s)

theorem discovery_profileError (s : App) : (profileError s).discovery = s.discovery :=
  discovery_of_findings (findings_profileError s)

/-! ## The start -/

/-- What a new connection begins with. -/
def Discovery.cleared (d : Discovery) : Discovery :=
  ⟨.zero, .zero, 0, 0, 0, 0, 0, false, false, false, false, d.autoSubscribe, d.requests⟩

theorem discovery_profileManagerReset (s : App) : (profileManagerReset env s).discovery = s.discovery.cleared := by
  unfold profileManagerReset
  cases hc : s.pm.conn with
  | none => rfl
  | some conn => rfl

/-- The request for the services. -/
def serviceRequest (conn : Conn) (result : Int) : Obs :=
  .stack (.gattDiscover (some conn) BT_ATT_FIRST_ATTRIBUTE_HANDLE BT_ATT_LAST_ATTRIBUTE_HANDLE BT_GATT_DISCOVER_PRIMARY)
    result

theorem discovery_profileManagerStart (env : Env) (s : App) (conn : Conn) :
    ∃ result, (profileManagerStart env s conn).2.discovery =
      { s.discovery.cleared with
        serviceDiscoverParams :=
          ⟨BT_ATT_FIRST_ATTRIBUTE_HANDLE, BT_ATT_LAST_ATTRIBUTE_HANDLE, BT_GATT_DISCOVER_PRIMARY⟩
        requests := serviceRequest conn result :: s.discovery.requests } := by
  have hreset : (profileManagerReset env s).discovery = s.discovery.cleared := discovery_profileManagerReset s
  simp only [profileManagerStart]
  generalize profileManagerReset env s = t at hreset
  have hopened : (updatePayloadLen { t with pm := { t.pm with conn := some conn } }).discovery = s.discovery.cleared := hreset
  generalize updatePayloadLen { t with pm := { t.pm with conn := some conn } } = u at hopened ⊢
  have hrequests : u.discovery.requests = s.discovery.requests := by rw [hopened]; rfl
  refine ⟨env.answer u.calls, ?_⟩
  rw [← hopened, ← hrequests]
  split
  · rw [discovery_profileError]
    rfl
  · rfl

theorem discovery_connected (env : Env) (s : App) (conn : Conn) :
    ∃ result, (connected env s conn 0).discovery =
      { s.discovery.cleared with
        serviceDiscoverParams :=
          ⟨BT_ATT_FIRST_ATTRIBUTE_HANDLE, BT_ATT_LAST_ATTRIBUTE_HANDLE, BT_GATT_DISCOVER_PRIMARY⟩
        requests := serviceRequest conn result :: s.discovery.requests } := by
  simp only [connected, ne_eq, not_true_eq_false, if_false]
  generalize ht : atHostNotifyConnected (setState { s.note (.connected 0) with link := .up conn } .connecting) = t
  have hsame : t.discovery = s.discovery := by
    rw [← ht, atHostNotifyConnected, discovery_queueCtrlLine]
    rfl
  obtain ⟨result, hstart⟩ := discovery_profileManagerStart env t conn
  refine ⟨result, ?_⟩
  rw [← hsame, ← hstart]
  have hdataLen : ∀ t : App, (profileManagerRequestDataLen env t).2.discovery = t.discovery := fun t =>
    discovery_of_findings (findings_profileManagerRequestDataLen t)
  have hphy : ∀ t : App, (profileManagerRequestPhy env t).2.discovery = t.discovery := fun t =>
    discovery_of_findings (findings_profileManagerRequestPhy t)
  have hmtu : ∀ t : App, (profileManagerRequestMtu env t).2.discovery = t.discovery := fun t =>
    discovery_of_findings (findings_profileManagerRequestMtu t)
  have hwhen : ∀ {t u : App} {f : App → Int × App} (c : Bool), (∀ t, (f t).2.discovery = t.discovery) →
      u.discovery = t.discovery → (if c then (f u).2 else u).discovery = t.discovery := by
    intro t u f c hf hu
    split
    · rw [hf, hu]
    · exact hu
  split
  · rw [atHostNotifyFunctionError, discovery_queueCtrlLine]
  · exact hwhen _ hphy (hwhen _ hdataLen (hwhen _ hmtu rfl))

/-! ## Scanning and the AT commands -/

theorem discovery_deviceFound (s : App) (addr : BtAddrLe) (rssi : Int) (type : Nat) (ad : List Byte) :
    (deviceFound env s addr rssi type ad).discovery = s.discovery := by
  unfold deviceFound
  split; · rfl
  split; · rfl
  dsimp only
  split; · rfl
  split
  · rfl
  · split
    · rfl
    · dsimp only [atHostNotifyScanResult]
      rw [discovery_queueCtrlLine]
      rfl

theorem discovery_opStartScan (s : App) (durationS : Nat) (filterName : Option Text) :
    (opStartScan env s durationS filterName).2.discovery = s.discovery := by
  unfold opStartScan
  split; · rfl
  split; · rfl
  split; · rfl
  have hask : ∀ t : App, (t.ask env .scanStart).2.discovery = t.discovery := discovery_ask rfl
  dsimp only
  split
  · exact hask _
  · exact hask _

section
variable (env)

theorem kept_discovery (d : Discovery) : AtHost.Kept (atOps env) atTx fun s => s.discovery = d where
  startScan durationS filterName h := (discovery_opStartScan _ durationS filterName).trans h
  connect mac addrType h := (discovery_of_findings (findings_opConnect _ mac addrType)).trans h
  disconnect connIndex h := (discovery_of_findings (findings_opDisconnect _ connIndex)).trans h
  sendPayload connIndex data h := by
    change (opSendPayload env _ connIndex data).2.discovery = d
    unfold opSendPayload
    split
    · exact h
    · exact (discovery_of_findings (findings_profileManagerSend _ data)).trans h
  getStatus h := by
    change (opGetStatus env _).2.discovery = d
    unfold opGetStatus
    split
    · exact h
    · exact h
  getProfile h := h
  setProfile service notify write h := (discovery_of_findings (findings_opSetProfile _ service notify write)).trans h
  setMtu mtu h := (discovery_of_findings (findings_opSetMtu _ mtu)).trans h
  getMtu h := h
  requestMtu connIndex h := by
    change (opRequestMtu env _ connIndex).2.discovery = d
    unfold opRequestMtu
    split
    · exact h
    · exact (discovery_of_findings (findings_profileManagerRequestMtu _)).trans h
  setConnParams connIndex minInterval maxInterval latency timeout h :=
    (discovery_of_findings (findings_opSetConnParams _ connIndex minInterval maxInterval latency timeout)).trans h
  enterDataMode connIndex text h := by
    change (queueCtrlLine (opEnterDataMode _ connIndex).2 text).discovery = d
    rw [discovery_queueCtrlLine]
    unfold opEnterDataMode
    repeat' split
    all_goals exact h
  getStreamStats h := h
  line text h := (discovery_queueCtrlLine _ text).trans h
  raw data h := (discovery_of_findings (findings_queueCtrlBytes _ data)).trans h

/-! ## Events -/

theorem discovery_controlUartIsr (f : Firmware) (tx : Option (Int × Int)) (rx : Option (List RxByte)) :
    (controlUartIsr env f tx rx).app.discovery = f.app.discovery := by
  have htx : (controlUartIsrTx f tx).app.discovery = f.app.discovery := discovery_of_findings (findings_controlUartIsrTx f tx)
  simp only [controlUartIsr]
  generalize controlUartIsrTx f tx = g at htx ⊢
  rw [← htx]
  split
  · split
    · simp only [controlUartIsrRx]
      split; · rfl
      split; · rfl
      split
      · have hrx : ∀ (o : Obs) (data : List RxByte), o.isRequest = false →
            (handleDataModeRx (g.app.note o) data).discovery = g.app.discovery := by
          intro o data ho
          rw [discovery_of_findings (streamed_handleDataModeRx (g.app.note o) data).findings, discovery_note ho]
        exact hrx _ _ rfl
      · have hkept : ∀ bytes : List Byte,
            (AtHost.atHostRxBytes (atOps env) atTx ⟨g.host, g.app.note (.atRx bytes), g.trace⟩ bytes).ctx.discovery =
              g.app.discovery :=
          fun bytes => (kept_discovery env g.app.discovery).atHostRxBytes
            (w := ⟨g.host, g.app.note (.atRx bytes), g.trace⟩) bytes rfl
        exact hkept _
    · rfl
  · rfl

/-- On an open connection. -/
theorem discovery_step {f : Firmware} {conn : Conn} (hl : f.app.link = .up conn) {e : Event} (hd : e.isDiscovery = false)
    (hk : !e.interrupts) : (step env f e).app.discovery = f.app.discovery := by
  cases e with
  | uart tx rx => exact discovery_controlUartIsr env f tx rx
  | lineState dtr => exact discovery_of_findings (findings_usbMessageCb f.app dtr)
  | bleWriteWork =>
      exact discovery_of_findings (findings_ite (findings_bleWriteLoop _ { f.app with bleWriteWork := false }) rfl)
  | bleWriteRetryWork => exact discovery_of_findings (findings_ite rfl rfl)
  | bleWriteCoalesceWork => exact discovery_of_findings (findings_ite rfl rfl)
  | escapeGuardWork now =>
      exact discovery_of_findings
        (findings_ite (findings_escapeGuardWorkHandler { f.app with escapeGuardWork := none } now) rfl)
  | scanStopWork =>
      exact discovery_of_findings (findings_ite (findings_stopScanInternal { f.app with scanStopWork := none } true) rfl)
  | deviceFound addr rssi type ad => exact discovery_deviceFound f.app addr rssi type ad
  | connected err =>
      have hsame : (step env f (.connected err)).app = f.app := by simp only [step, stepApp, hl]
      rw [hsame]
  | disconnected reason => cases hk
  | leParamUpdated interval latency timeout =>
      have hcall : (step env f (.leParamUpdated interval latency timeout)).app =
          leParamUpdated f.app conn interval latency timeout := by simp only [step, stepApp, hl]
      rw [hcall]
      exact discovery_of_findings (findings_leParamUpdated f.app conn interval latency timeout)
  | attMtu mtu => rfl
  | serviceDiscover attr => cases hd
  | characteristicDiscover attr => cases hd
  | subscribe err => cases hd
  | notify data =>
      cases data with
      | none => cases hk
      | some data =>
          have hcall : (step env f (.notify (some data))).app = profilePayloadReceived f.app data := by
            simp only [step, stepApp, whileUp, hl, notifyHandler]
          rw [hcall]
          exact discovery_of_findings (findings_profilePayloadReceived f.app data)
  | exchange err =>
      have hcall : (step env f (.exchange err)).app = exchangeHandler f.app err := by
        simp only [step, stepApp, whileUp, hl]
      rw [hcall]
      exact discovery_of_findings (findings_exchangeHandler f.app err)
  | write err =>
      have hcall : (step env f (.write err)).app = writeHandler f.app err := by simp only [step, stepApp, whileUp, hl]
      rw [hcall]
      exact discovery_of_findings (findings_writeHandler f.app err)

end

end BleAtHost.Main
