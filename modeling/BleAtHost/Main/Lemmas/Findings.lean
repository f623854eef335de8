import BleAtHost.Main.Discovery
import BleAtHost.Main.ScanCache
import BleAtHost.Main.Lemmas.Traffic

/-!
# What most handlers leave alone

What the profile manager holds of a database, and what a scan has found. The lines, the streams, the writes and the
settings touch neither.
-/

namespace BleAtHost.Main

open Relation

variable {s s' : App} {env : Env}

/-! ## The view -/

/-- The cache with its counter, the filter and what the log says of the scan. -/
structure ScanView where
  devices : List ScannedDeviceEntry
  next : Nat
  filter : Text
  announced : List Text
  starts : Nat

def App.scanView (s : App) : ScanView :=
  ⟨s.scannedDevices, s.nextScanIndex, s.scanFilterName, announced s.log, scanStarts s.log⟩

def Obs.isScan : Obs → Bool
  | .stack .scanStart _ => true
  | .ctrlLine line _ => isScanLine line
  | _ => false

theorem announced_quiet {o : Obs} (h : o.isScan = false) (log : List Obs) : announced (o :: log) = announced log := by
  cases o with
  | stack call r =>
      cases call with
      | scanStart => cases h
      | _ => rfl
  | ctrlLine line whole =>
      have hline : isScanLine line = false := h
      simp [announced, hline]
  | _ => rfl

theorem scanStarts_quiet {o : Obs} (h : o.isScan = false) (log : List Obs) : scanStarts (o :: log) = scanStarts log := by
  have hstart : ¬o.isScanStart = true := by
    cases o with
    | stack call r =>
        cases call with
        | scanStart => cases h
        | _ => simp [Obs.isScanStart]
    | _ => simp [Obs.isScanStart]
  exact List.countP_cons_of_neg hstart

theorem scanStarts_start (r : Int) (log : List Obs) : scanStarts (.stack .scanStart r :: log) = scanStarts log + 1 :=
  List.countP_cons_of_pos (p := Obs.isScanStart) rfl

theorem scanView_quiet {new : List Obs} (h : ∀ o ∈ new, o.isScan = false) (log : List Obs) :
    announced (new ++ log) = announced log ∧ scanStarts (new ++ log) = scanStarts log := by
  induction new with
  | nil => exact ⟨rfl, rfl⟩
  | cons o new ih =>
      obtain ⟨ha, hs⟩ := ih fun o ho => h o (List.mem_cons_of_mem _ ho)
      have ho := h o List.mem_cons_self
      rw [List.cons_append, announced_quiet ho, scanStarts_quiet ho]
      exact ⟨ha, hs⟩

/-! ## Both views -/

/-- Of the profile and of the devices. -/
structure Findings where
  discovery : Discovery
  scan : ScanView

def App.findings (s : App) : Findings := ⟨s.discovery, s.scanView⟩

theorem discovery_of_findings (h : s'.findings = s.findings) : s'.discovery = s.discovery := congrArg Findings.discovery h

theorem scanView_of_findings (h : s'.findings = s.findings) : s'.scanView = s.scanView := congrArg Findings.scan h

/-- The cache, the filter and what the log says of the scan are as before. -/
theorem scanView_eq (hd : s'.scannedDevices = s.scannedDevices) (hn : s'.nextScanIndex = s.nextScanIndex)
    (hf : s'.scanFilterName = s.scanFilterName) (new : List Obs) (hl : s'.log = new ++ s.log)
    (h : ∀ o ∈ new, o.isScan = false) : s'.scanView = s.scanView := by
  obtain ⟨ha, hs⟩ := scanView_quiet h s.log
  simp only [App.scanView, hd, hn, hf, hl, ha, hs]

theorem scanView_note {o : Obs} (h : o.isScan = false) (s : App) : (s.note o).scanView = s.scanView :=
  scanView_eq rfl rfl rfl [o] rfl (by simpa using h)

theorem scanView_ask {call : StackCall} (h : call ≠ .scanStart) (s : App) : (s.ask env call).2.scanView = s.scanView := by
  have hquiet : ∀ result, (Obs.stack call result).isScan = false := by
    intro result
    cases call with
    | scanStart => exact absurd rfl h
    | _ => rfl
  exact scanView_eq rfl rfl rfl [_] rfl (by simpa using hquiet _)

theorem discovery_note {o : Obs} (h : o.isRequest = false) (s : App) : (s.note o).discovery = s.discovery := by
  simp [App.note, App.discovery, h]

theorem discovery_ask {call : StackCall} (h : (Obs.stack call 0).isRequest = false) (s : App) :
    (s.ask env call).2.discovery = s.discovery := by
  have hnone : ∀ result, (Obs.stack call result).isRequest = false := by
    intro result
    cases call with
    | gattDiscover | gattSubscribe => cases h
    | _ => rfl
  simp [App.ask, App.discovery, hnone]

theorem findings_eq (hd : s'.discovery = s.discovery) (hs : s'.scanView = s.scanView) : s'.findings = s.findings := by
  rw [App.findings, hd, hs]
  rfl

theorem findings_note {o : Obs} (hr : o.isRequest = false) (hs : o.isScan = false) (s : App) :
    (s.note o).findings = s.findings := findings_eq (discovery_note hr s) (scanView_note hs s)

theorem findings_ask {call : StackCall} (hr : (Obs.stack call 0).isRequest = false) (hs : call ≠ .scanStart) (s : App) :
    (s.ask env call).2.findings = s.findings := findings_eq (discovery_ask hr s) (scanView_ask hs s)

theorem findings_ite {c : Prop} [Decidable c] {t u : App} (ht : t.findings = s.findings) (hu : u.findings = s.findings) :
    (if c then t else u).findings = s.findings := by
  split
  · exact ht
  · exact hu

/-! ## Lines -/

@[simp] theorem findings_kickUartTx (s : App) : (kickUartTx s).findings = s.findings := by
  unfold kickUartTx
  exact findings_ite rfl rfl

@[simp] theorem findings_queueCtrlBytes (s : App) (data : List Byte) : (queueCtrlBytes s data).findings = s.findings := by
  unfold queueCtrlBytes
  apply findings_ite
  · rfl
  · rw [findings_kickUartTx]
    rfl

/-- A line that begins otherwise. -/
theorem not_isScanLine {start line : Text} (h : start <+: line) (hne : ¬start <+: ascii "+IND=SCDA,")
    (hne' : ¬ascii "+IND=SCDA," <+: start) : isScanLine line = false := by
  rw [Bool.eq_false_iff]
  intro hscan
  rcases List.prefix_or_prefix_of_prefix h (List.isPrefixOf_iff_prefix.mp hscan) with hp | hp
  · exact hne hp
  · exact hne' hp

theorem not_isScanLine_snprintk {size : Nat} {start : Text} (hsize : start.length < size)
    (hne : ¬start <+: ascii "+IND=SCDA,") (hne' : ¬ascii "+IND=SCDA," <+: start) (text : Text) :
    isScanLine (snprintk size (start ++ text)) = false :=
  not_isScanLine (AtHost.prefix_snprintk hsize text) hne hne'

theorem not_isScanLine_answer {line : Text} (h : AtHost.IsAnswer line) : isScanLine line = false := by
  obtain ⟨start, hm, hp⟩ := h
  have hall : ∀ start ∈ [ascii "+OK", ascii "+ERR", ascii "0:", ascii "+IND=DATAMODE,1"],
      ¬start <+: ascii "+IND=SCDA," ∧ ¬ascii "+IND=SCDA," <+: start := by decide
  exact not_isScanLine hp (hall start hm).1 (hall start hm).2

theorem not_isScanLine_error (kind : AtHost.ErrorKind) : isScanLine kind.text = false :=
  not_isScanLine_answer (AtHost.isAnswer_error kind)

theorem findings_queueCtrlLine {line : Text} (h : isScanLine line = false) (s : App) :
    (queueCtrlLine s line).findings = s.findings := by
  have hquiet : ∀ whole, (Obs.ctrlLine line whole).isScan = false := fun _ => h
  unfold queueCtrlLine
  dsimp only
  rw [findings_note rfl (hquiet _), findings_queueCtrlBytes, findings_queueCtrlBytes]

@[simp] theorem findings_functionError (s : App) : (atHostNotifyFunctionError s).findings = s.findings :=
  findings_queueCtrlLine (not_isScanLine_error _) s

@[simp] theorem findings_notifyReady (s : App) : (atHostNotifyReady s).findings = s.findings :=
  findings_queueCtrlLine (by decide) s

@[simp] theorem findings_refresh (s : App) : (refreshUartRxFlowControl s).findings = s.findings := by
  unfold refreshUartRxFlowControl
  repeat' split
  all_goals rfl

@[simp] theorem findings_profileReady (s : App) : (profileReady s).findings = s.findings := by
  unfold profileReady
  dsimp only
  rw [findings_notifyReady]
  exact findings_ite (findings_note rfl rfl s) (findings_note rfl rfl s)

@[simp] theorem findings_profileError (s : App) : (profileError s).findings = s.findings := by
  unfold profileError
  dsimp only
  rw [findings_functionError]
  exact findings_ite (findings_note rfl rfl s) (findings_note rfl rfl s)

@[simp] theorem findings_profileMtuUpdated (s : App) (payloadLen : Nat) :
    (profileMtuUpdated s payloadLen).findings = s.findings := by
  unfold profileMtuUpdated atHostNotifyMtu
  rw [findings_queueCtrlLine (not_isScanLine_snprintk (by decide) (by decide) (by decide) _), findings_note rfl rfl]

/-! ## The streams -/

theorem Streamed.findings (h : Streamed s s') : s'.findings = s.findings := by
  obtain ⟨_, _, _, _, _, _, _, _, _, _, _, new, hnew, rfl⟩ := h
  have hquiet : ∀ o ∈ new, o.isRequest = false ∧ o.isScan = false := by
    intro o ho
    have hs := hnew o ho
    cases o with
    | stack => exact absurd hs id
    | ctrlLine => exact absurd hs id
    | _ => exact ⟨rfl, rfl⟩
  have hnone : new.filter Obs.isRequest = [] := by
    rw [List.filter_eq_nil_iff]
    intro o ho
    simp [(hquiet o ho).1]
  apply findings_eq
  · simp [App.discovery, List.filter_append, hnone]
  · exact scanView_eq rfl rfl rfl new rfl fun o ho => (hquiet o ho).2

theorem Serve.findings (h : Serve s s') : s'.findings = s.findings := by
  cases h with
  | flow => exact findings_refresh s
  | _ => rfl

theorem findings_serviceUartTx (s : App) (accept now : Int) : (serviceUartTx s accept now).findings = s.findings :=
  Runs.invariant (P := fun t => t.findings = s.findings) (fun hab ha => hab.findings.trans ha)
    (serves_serviceUartTx s accept now) rfl

theorem findings_escapeGuardWorkHandler (s : App) (now : Int) : (escapeGuardWorkHandler s now).findings = s.findings := by
  unfold escapeGuardWorkHandler
  dsimp only
  split
  · rfl
  split
  · split
    · rfl
    · dsimp only [exitDataMode, atHostNotifyDataMode]
      rw [findings_refresh, findings_kickUartTx, findings_queueCtrlLine (by decide)]
      rfl
  · rw [findings_note rfl rfl]
    exact (streamed_flush s now).findings

theorem findings_profilePayloadReceived (s : App) (data : List Byte) :
    (profilePayloadReceived s data).findings = s.findings := by
  change (if s.appState = .dataMode then queueDataBytes (countPayload s data) data
    else atHostNotifyReceive (countPayload s data) data).findings = (countPayload s data).findings
  generalize countPayload s data = t
  apply findings_ite
  · unfold queueDataBytes
    apply findings_ite
    · rfl
    · dsimp only
      rw [findings_kickUartTx]
      split
      · rfl
      · rfl
  · unfold atHostNotifyReceive
    apply findings_ite rfl
    simp only [List.append_assoc]
    exact findings_queueCtrlLine (not_isScanLine_snprintk (by decide) (by decide) (by decide) _) t

theorem findings_controlUartIsrTx (f : Firmware) (tx : Option (Int × Int)) :
    (controlUartIsrTx f tx).app.findings = f.app.findings := by
  unfold controlUartIsrTx
  split
  · split
    · exact findings_serviceUartTx f.app _ _
    · rfl
  · rfl

theorem findings_usbMessageCb (s : App) (dtr : Bool) : (usbMessageCb s dtr).findings = s.findings := by
  unfold usbMessageCb
  apply findings_ite rfl
  rw [findings_kickUartTx]
  rfl

/-! ## Operations of the connection -/

theorem findings_exchangeHandler (s : App) (err : Nat) : (exchangeHandler s err).findings = s.findings := by
  simp only [exchangeHandler]
  have hended : ∀ t : App, ({ t with pm := { t.pm with exchangeParams := false } } : App).findings = t.findings :=
    fun t => rfl
  rw [hended]
  apply findings_ite
  · rw [findings_profileMtuUpdated]
    rfl
  · rfl

theorem findings_writeHandler (s : App) (err : Nat) : (writeHandler s err).findings = s.findings := by
  simp only [writeHandler]
  apply findings_ite
  · rw [findings_profileError]
    rfl
  · rfl

theorem findings_profileManagerRequestMtu (s : App) : (profileManagerRequestMtu env s).2.findings = s.findings := by
  unfold profileManagerRequestMtu
  split
  · rfl
  · rename_i conn _
    split
    · rfl
    · have hask : ∀ t : App, (t.ask env (.gattExchangeMtu conn)).2.findings = t.findings := findings_ask rfl (by simp)
      dsimp only
      split
      · rw [findings_profileMtuUpdated]
        exact hask _
      · split
        · exact hask _
        · exact hask _

theorem findings_profileManagerRequestDataLen (s : App) : (profileManagerRequestDataLen env s).2.findings = s.findings := by
  unfold profileManagerRequestDataLen
  split
  · rfl
  · exact findings_ask rfl (by simp) s

theorem findings_profileManagerRequestPhy (s : App) : (profileManagerRequestPhy env s).2.findings = s.findings := by
  unfold profileManagerRequestPhy
  split
  · rfl
  · exact findings_ask rfl (by simp) s

theorem findings_leParamUpdated (s : App) (conn : Conn) (interval latency timeout : Nat) :
    (leParamUpdated s conn interval latency timeout).findings = s.findings := by
  unfold leParamUpdated
  apply findings_ite
  · simp only [atHostNotifyLinkParams, List.append_assoc]
    rw [findings_queueCtrlLine (not_isScanLine_snprintk (by decide) (by decide) (by decide) _), findings_note rfl rfl]
  · rfl

theorem findings_profileManagerSend (s : App) (data : List Byte) : (profileManagerSend env s data).2.findings = s.findings := by
  unfold profileManagerSend
  split; · rfl
  split; · rfl
  split; · rfl
  split
  · exact findings_ask rfl (by simp) s
  split; · rfl
  rename_i conn _ _ _ _ _
  have hask : ∀ t : App, (t.ask env (.gattWrite conn s.pm.writeValueHandle data)).2.findings = t.findings :=
    findings_ask rfl (by simp)
  dsimp only
  split
  · exact hask _
  · exact hask _

theorem findings_bleWriteLoop (passes : Nat) (s : App) : (bleWriteLoop env passes s).findings = s.findings := by
  induction passes generalizing s with
  | zero => rfl
  | succ passes ih =>
      have hsent : (sendChunk env s).2.findings = s.findings := by
        simp only [sendChunk]
        rw [findings_note rfl rfl, findings_profileManagerSend]
        rfl
      unfold bleWriteLoop
      split; · rfl
      split; · rfl
      split; · rfl
      split; · rfl
      rcases hr : sendChunk env s with ⟨err, t⟩
      rw [hr] at hsent
      dsimp only at hsent ⊢
      split
      · rw [ih, ← hsent]
        exact (streamed_finishChunk t _).findings
      · exact findings_ite hsent hsent

/-! ## Scanning and the settings -/

theorem findings_stopScanInternal (s : App) (emitComplete : Bool) :
    (stopScanInternal env s emitComplete).2.findings = s.findings := by
  have hask : ({ s with scanStopWork := none }.ask env .scanStop).2.findings = s.findings :=
    findings_ask rfl (by simp) { s with scanStopWork := none }
  have hline : ∀ t : App, (atHostNotifyScanComplete t).findings = t.findings := findings_queueCtrlLine (by decide)
  unfold stopScanInternal
  split
  · rfl
  · dsimp only
    split
    · exact hask
    · apply findings_ite
      · rw [hline]
        exact hask
      · exact hask

theorem findings_opConnect (s : App) (mac : Text) (addrType : Nat) :
    (opConnect env s mac addrType).2.findings = s.findings := by
  have hcreate : ∀ (t : App) (peer : BtAddrLe), (createConnection env t peer).2.findings = t.findings := by
    intro t peer
    have hask : (t.ask env (.connCreate ⟨t.conns, peer⟩ t.config.connIntervalMin t.config.connIntervalMax
        t.config.latency t.config.timeout)).2.findings = t.findings := findings_ask rfl (by simp) t
    simp only [createConnection]
    split
    · exact hask
    · exact hask
  unfold opConnect
  split; · rfl
  split; · rfl
  split; · rfl
  split; · rfl
  split
  · have hstop : (stopScanInternal env s false).2.findings = s.findings := findings_stopScanInternal s false
    rcases hr : stopScanInternal env s false with ⟨err, t⟩
    rw [hr] at hstop
    dsimp only at hstop ⊢
    split
    · exact hstop
    · rw [hcreate, hstop]
  · exact hcreate s _

theorem findings_opDisconnect (s : App) (connIndex : Nat) : (opDisconnect env s connIndex).2.findings = s.findings := by
  unfold opDisconnect
  split; · rfl
  split
  · rfl
  · exact findings_ask rfl (by simp) (setState s .disconnecting)

theorem findings_settingsSaveAll (items : List (SettingsKey × List Byte)) (s : App) :
    (settingsSaveAll env s items).2.findings = s.findings := by
  induction items generalizing s with
  | nil => rfl
  | cons item items ih =>
      have hone : (settingsSaveOne env s item.1 item.2).2.findings = s.findings := by
        have hask : (s.ask env (.settingsSave item.1 item.2)).2.findings = s.findings := findings_ask rfl (by simp) s
        simp only [settingsSaveOne]
        exact findings_ite hask hask
      simp only [settingsSaveAll]
      split
      · exact hone
      · rw [ih, hone]

theorem findings_opSetProfile (s : App) (service notify write : Text) :
    (opSetProfile env s service notify write).2.findings = s.findings := by
  have hupdate : (bleHostSettingsUpdateProfile env s service notify write).2.findings = s.findings := by
    unfold bleHostSettingsUpdateProfile
    split
    · dsimp only
      rw [findings_settingsSaveAll]
      rfl
    · rfl
  simp only [opSetProfile]
  split
  · exact hupdate
  · exact hupdate

theorem findings_opSetMtu (s : App) (mtu : Nat) : (opSetMtu env s mtu).2.findings = s.findings := by
  have hupdate : (bleHostSettingsUpdateMtu env s mtu).2.findings = s.findings := by
    unfold bleHostSettingsUpdateMtu
    split
    · rfl
    · rw [findings_settingsSaveAll]
      rfl
  simp only [opSetMtu]
  split
  · exact hupdate
  · exact hupdate

theorem findings_opSetConnParams (s : App) (connIndex minInterval maxInterval latency timeout : Nat) :
    (opSetConnParams env s connIndex minInterval maxInterval latency timeout).2.findings = s.findings := by
  unfold opSetConnParams
  split; · rfl
  split; · rfl
  rename_i conn _
  have hask : (s.ask env (.connParamUpdate conn minInterval maxInterval latency timeout)).2.findings = s.findings :=
    findings_ask rfl (by simp) s
  dsimp only
  split
  · exact hask
  · unfold bleHostSettingsUpdateConnParams
    split
    · exact hask
    · rw [findings_settingsSaveAll]
      exact hask

end BleAtHost.Main
