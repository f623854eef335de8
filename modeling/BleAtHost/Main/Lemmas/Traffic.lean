import BleAtHost.Main.Traffic
import BleAtHost.Main.Lemmas.Control

/-!
# Handlers and the traffic

Most functions leave the traffic alone. The others are steps of it; there is one lemma for each function of the source.
-/

namespace BleAtHost.Main

open Relation

variable {s s' : App} {env : Env} {command : Prop}

/-! ## What leaves the traffic alone -/

theorem traffic_note {o : Obs} (h : o.isTraffic = false) (s : App) : (s.note o).traffic = s.traffic := by
  simp [App.note, App.traffic, h]

theorem traffic_ask {call : StackCall} (h : call.isTraffic = false) (s : App) :
    (s.ask env call).2.traffic = s.traffic := by
  simp [App.ask, App.traffic, Obs.isTraffic, h]

theorem traffic_ite {c : Prop} [Decidable c] {t u : App} (ht : t.traffic = s.traffic) (hu : u.traffic = s.traffic) :
    (if c then t else u).traffic = s.traffic := by
  split
  · exact ht
  · exact hu

@[simp] theorem traffic_kickUartTx (s : App) : (kickUartTx s).traffic = s.traffic := by
  unfold kickUartTx
  exact traffic_ite rfl rfl

@[simp] theorem traffic_queueCtrlBytes (s : App) (data : List Byte) : (queueCtrlBytes s data).traffic = s.traffic := by
  unfold queueCtrlBytes
  refine traffic_ite rfl ?_
  rw [traffic_kickUartTx]
  rfl

@[simp] theorem traffic_queueCtrlLine (s : App) (line : Text) : (queueCtrlLine s line).traffic = s.traffic := by
  unfold queueCtrlLine
  dsimp only
  rw [traffic_note rfl, traffic_queueCtrlBytes, traffic_queueCtrlBytes]

theorem traffic_atHostNotifyReceive (s : App) (data : List Byte) : (atHostNotifyReceive s data).traffic = s.traffic := by
  unfold atHostNotifyReceive
  exact traffic_ite rfl (traffic_queueCtrlLine s _)

@[simp] theorem traffic_refresh (s : App) : (refreshUartRxFlowControl s).traffic = s.traffic := by
  unfold refreshUartRxFlowControl
  repeat' split
  all_goals rfl

@[simp] theorem traffic_schedule (s : App) : (scheduleDataModeBleTx s).traffic = s.traffic := by
  unfold scheduleDataModeBleTx
  repeat' split
  all_goals rfl

@[simp] theorem traffic_profileReady (s : App) : (profileReady s).traffic = s.traffic := by
  unfold profileReady
  dsimp only [atHostNotifyReady]
  rw [traffic_queueCtrlLine]
  split
  · rfl
  · rfl

@[simp] theorem traffic_profileError (s : App) : (profileError s).traffic = s.traffic := by
  unfold profileError
  dsimp only [atHostNotifyFunctionError]
  rw [traffic_queueCtrlLine]
  split
  · rfl
  · rfl

@[simp] theorem traffic_profileMtuUpdated (s : App) (payloadLen : Nat) :
    (profileMtuUpdated s payloadLen).traffic = s.traffic := by
  unfold profileMtuUpdated atHostNotifyMtu
  rw [traffic_queueCtrlLine]
  rfl

theorem traffic_subscribeHandler (s : App) (err : Nat) : (subscribeHandler s err).traffic = s.traffic := by
  unfold subscribeHandler
  refine traffic_ite ?_ ?_
  · rw [traffic_profileError]
    rfl
  · rw [traffic_profileReady]
    rfl

theorem traffic_matchCharacteristic (s : App) (profile : BleProfile) (chrc : GattChrc) :
    ({ s with pm := matchCharacteristic profile s.pm chrc } : App).traffic = s.traffic := by
  simp only [matchCharacteristic]
  repeat' split
  all_goals rfl

theorem traffic_characteristicDiscoverCb (s : App) (attr : Option GattChrc) :
    (characteristicDiscoverCb env s attr).traffic = s.traffic := by
  unfold characteristicDiscoverCb
  cases attr with
  | none =>
      refine traffic_ite (traffic_profileError s) (traffic_ite (traffic_profileError s) (traffic_ite ?_ ?_))
      · simp only [subscribeNotifyCharacteristic]
        split
        · rw [traffic_profileError]
          exact traffic_ask rfl s
        · exact traffic_ask rfl s
      · rw [traffic_profileReady]
        rfl
  | some chrc => exact traffic_ite (traffic_profileError s) (traffic_matchCharacteristic s _ chrc)

theorem traffic_serviceDiscoverCb (s : App) (attr : Option GattService) :
    (serviceDiscoverCb env s attr).traffic = s.traffic := by
  unfold serviceDiscoverCb
  cases attr with
  | none =>
      refine traffic_ite (traffic_profileError s) ?_
      have hask : ∀ (t : App) (conn : Option Conn) (startHandle endHandle type : Nat),
          (t.ask env (.gattDiscover conn startHandle endHandle type)).2.traffic = t.traffic :=
        fun t conn startHandle endHandle type => traffic_ask rfl t
      simp only [startCharacteristicDiscovery]
      split
      · rw [traffic_profileError]
        exact hask _ _ _ _ _
      · exact hask _ _ _ _ _
  | some service => exact traffic_ite (traffic_profileError s) (traffic_ite rfl rfl)

theorem traffic_settingsSaveAll (items : List (SettingsKey × List Byte)) (s : App) :
    (settingsSaveAll env s items).2.traffic = s.traffic := by
  induction items generalizing s with
  | nil => rfl
  | cons item items ih =>
      have hone : (settingsSaveOne env s item.1 item.2).2.traffic = s.traffic := by
        have hask : (s.ask env (.settingsSave item.1 item.2)).2.traffic = s.traffic := traffic_ask rfl s
        simp only [settingsSaveOne]
        exact traffic_ite hask hask
      simp only [settingsSaveAll]
      split
      · exact hone
      · rw [ih, hone]

theorem traffic_stopScanInternal (s : App) (emitComplete : Bool) :
    (stopScanInternal env s emitComplete).2.traffic = s.traffic := by
  unfold stopScanInternal
  split
  · rfl
  · have hask : ({ s with scanStopWork := none }.ask env .scanStop).2.traffic = s.traffic :=
      traffic_ask rfl { s with scanStopWork := none }
    dsimp only
    split
    · exact hask
    · refine traffic_ite ?_ hask
      dsimp only [atHostNotifyScanComplete]
      rw [traffic_queueCtrlLine]
      exact hask

theorem traffic_deviceFound (s : App) (addr : BtAddrLe) (rssi : Int) (type : Nat) (ad : List Byte) :
    (deviceFound env s addr rssi type ad).traffic = s.traffic := by
  unfold deviceFound
  refine traffic_ite rfl (traffic_ite rfl (traffic_ite rfl ?_))
  split
  · rfl
  · split
    · rfl
    · dsimp only [atHostNotifyScanResult]
      rw [traffic_queueCtrlLine]
      rfl

theorem traffic_opStartScan (s : App) (durationS : Nat) (filterName : Option Text) :
    (opStartScan env s durationS filterName).2.traffic = s.traffic := by
  unfold opStartScan
  split; · rfl
  split; · rfl
  split; · rfl
  have hask : ∀ t : App, (t.ask env .scanStart).2.traffic = t.traffic := traffic_ask rfl
  dsimp only
  split
  · exact hask _
  · exact hask _

theorem traffic_leParamUpdated (s : App) (conn : Conn) (interval latency timeout : Nat) :
    (leParamUpdated s conn interval latency timeout).traffic = s.traffic := by
  unfold leParamUpdated
  refine traffic_ite ?_ rfl
  dsimp only [atHostNotifyLinkParams]
  rw [traffic_queueCtrlLine]
  rfl

theorem traffic_usbMessageCb (s : App) (dtr : Bool) : (usbMessageCb s dtr).traffic = s.traffic := by
  unfold usbMessageCb
  refine traffic_ite rfl ?_
  rw [traffic_kickUartTx]
  rfl

theorem traffic_activate (s : App) (now : Int) : (activatePendingDataModeIfReady s now).traffic = s.traffic := by
  unfold activatePendingDataModeIfReady
  refine traffic_ite rfl (traffic_ite rfl ?_)
  rw [traffic_refresh]
  rfl

/-! ## The profile manager -/

namespace Traffic

theorem Step.one {t t' : Traffic} (h : Step env command t t') : Steps env command t t' := ReflTransGen.single h

theorem Steps.same {t : Traffic} (h : Steps env command t s.traffic) (he : s'.traffic = s.traffic) :
    Steps env command t s'.traffic := by
  rw [he]
  exact h

/-- What a call touches. -/
theorem issue_eq (t : Traffic) (w : Write) (result : Int) :
    ∃ pendingWrite writeParams writeInProgress, t.issue w result =
      { t with
        pendingWrite := pendingWrite
        writeParams := writeParams
        writeInProgress := writeInProgress
        log := .stack w.call result :: t.log } := by
  unfold issue
  split
  · exact ⟨w.data, ⟨w.handle, w.data.length⟩, decide (result = 0), rfl⟩
  · exact ⟨t.pendingWrite, t.writeParams, t.writeInProgress, rfl⟩

/-- What the end of a pass touches. -/
theorem finish_eq (t : Traffic) (chunk : List Byte) (result : Int) (ahead : Nat) :
    ∃ toBle stats, stats.unexpectedDisconnectCount = t.stats.unexpectedDisconnectCount ∧ t.finish chunk result ahead =
      { t with
        toBle := toBle
        stats := stats
        log := .write chunk result ahead :: t.log } := by
  simp only [finish]
  split
  · refine ⟨_, _, ?_, rfl⟩
    rfl
  · exact ⟨t.toBle, t.stats, rfl, rfl⟩

theorem issue_log (t : Traffic) (w : Write) (result : Int) : (t.issue w result).log = .stack w.call result :: t.log := by
  obtain ⟨_, _, _, he⟩ := issue_eq t w result
  rw [he]

theorem finish_log (t : Traffic) (chunk : List Byte) (result : Int) (ahead : Nat) :
    (t.finish chunk result ahead).log = .write chunk result ahead :: t.log := by
  obtain ⟨_, _, _, he⟩ := finish_eq t chunk result ahead
  rw [he]

theorem closed_log (t : Traffic) (reason : Nat) (paused : Bool) :
    (t.closed reason paused).log = [.clear paused, .h2bReset, .disconnected reason] ++ t.log := by
  unfold closed countDisconnect
  split
  · rfl
  · rfl

end Traffic

theorem traffic_updatePayloadLen (s : App) : (updatePayloadLen s).traffic = s.traffic.refit := rfl

theorem traffic_profileManagerReset (s : App) : (profileManagerReset env s).traffic = s.traffic.cleared.refit := by
  unfold profileManagerReset
  cases hc : s.pm.conn with
  | none => rfl
  | some conn =>
      have hask : (s.ask env (.gattUnsubscribe conn)).2.traffic = s.traffic := traffic_ask rfl s
      rw [← hask]
      rfl

theorem traffic_profileManagerStart (s : App) (conn : Conn) :
    (profileManagerStart env s conn).2.traffic = s.traffic.opened conn := by
  have hreset : (profileManagerReset env s).traffic = s.traffic.cleared.refit := traffic_profileManagerReset s
  simp only [profileManagerStart]
  generalize profileManagerReset env s = t at hreset
  have hopened : (updatePayloadLen { t with pm := { t.pm with conn := some conn } }).traffic = s.traffic.opened conn := by
    change Traffic.refit { t.traffic with conn := some conn } = s.traffic.opened conn
    rw [hreset]
    rfl
  generalize updatePayloadLen { t with pm := { t.pm with conn := some conn } } = u at hopened ⊢
  rw [← hopened]
  have hask : ∀ (t : App) (startHandle endHandle type : Nat),
      (t.ask env (.gattDiscover (some conn) startHandle endHandle type)).2.traffic = t.traffic :=
    fun t startHandle endHandle type => traffic_ask rfl t
  split
  · rw [traffic_profileError]
    exact hask _ _ _ _
  · exact hask _ _ _ _

theorem traffics_exchangeHandler (s : App) (err : Nat) :
    Traffic.Steps env command s.traffic.exchanged (exchangeHandler s err).traffic := by
  simp only [exchangeHandler]
  have hended : ∀ t : App, ({ t with pm := { t.pm with exchangeParams := false } } : App).traffic =
      { t.traffic with exchangeParams := false } := fun t => rfl
  rw [hended]
  split
  · rw [traffic_profileMtuUpdated]
    exact Traffic.Step.refit.one
  · exact ReflTransGen.refl

theorem traffic_writeHandler (s : App) (err : Nat) : (writeHandler s err).traffic = s.traffic.written := by
  simp only [writeHandler]
  split
  · rw [traffic_profileError]
    rfl
  · rfl

theorem traffics_profileManagerRequestMtu (s : App) :
    Traffic.Steps env command s.traffic (profileManagerRequestMtu env s).2.traffic := by
  unfold profileManagerRequestMtu
  split
  · exact ReflTransGen.refl
  · rename_i conn hc
    split
    · exact ReflTransGen.refl
    · rename_i hi
      have hi : s.pm.exchangeInProgress = false := by simpa using hi
      have hexchange : Traffic.Steps env command s.traffic (s.traffic.exchange conn (env.answer s.calls)) :=
        (Traffic.Step.exchange conn (env.answer s.calls) hc hi).one
      dsimp only [App.ask]
      generalize env.answer s.calls = result at hexchange
      split
      · rename_i hr
        subst hr
        rw [traffic_profileMtuUpdated]
        exact hexchange.tail .refit
      · split
        · rename_i hr
          simp only [Traffic.exchange, hr, decide_false] at hexchange
          exact hexchange
        · rename_i hr
          have hr : result = 0 := by simpa using hr
          subst hr
          exact hexchange

/-- A payload is refused before the stack is asked, or it is a write. -/
theorem profileManagerSend_cases (env : Env) (s : App) (data : List Byte) :
    ((profileManagerSend env s data).2.traffic = s.traffic ∧ (profileManagerSend env s data).1 ≠ 0 ∧
      ((profileManagerSend env s data).1 = -EMSGSIZE →
        data.length = 0 ∨ BLE_HOST_SEND_MAX_LEN < data.length ∨ s.pm.payloadLen < data.length)) ∨
    ∃ w : Write, w.data = data ∧ s.traffic.MayWrite w ∧ (profileManagerSend env s data).1 = env.answer s.calls ∧
      (profileManagerSend env s data).2.traffic = s.traffic.issue w (env.answer s.calls) := by
  have hrefused : ∀ err : Int, err ≠ 0 → err ≠ -EMSGSIZE → s.traffic = s.traffic ∧ err ≠ 0 ∧
      (err = -EMSGSIZE → data.length = 0 ∨ BLE_HOST_SEND_MAX_LEN < data.length ∨ s.pm.payloadLen < data.length) :=
    fun err h he => ⟨rfl, h, fun hr => absurd hr he⟩
  unfold profileManagerSend
  split
  · exact .inl (hrefused (-ENOTCONN) (by decide) (by decide))
  rename_i conn hc
  split
  · exact .inl (hrefused (-EAGAIN) (by decide) (by decide))
  split
  · rename_i hlen
    exact .inl ⟨rfl, show (-EMSGSIZE : Int) ≠ 0 by decide, fun _ => hlen⟩
  rename_i hlen
  push Not at hlen
  have hpos : 0 < data.length := Nat.pos_of_ne_zero hlen.1
  split
  · refine .inr ⟨⟨conn, s.pm.writeValueHandle, data, false⟩, rfl, ⟨hc, ?_, hpos, hlen.2.2, hlen.2.1⟩, rfl, rfl⟩
    rintro ⟨⟩
  split
  · exact .inl (hrefused (-EACCES) (by decide) (by decide))
  rename_i hidle
  have hidle : s.pm.writeInProgress = false := by
    simp only [Bool.or_eq_true, not_or, Bool.not_eq_true] at hidle
    exact hidle.2
  refine .inr ⟨⟨conn, s.pm.writeValueHandle, data, true⟩, rfl, ⟨hc, fun _ => hidle, hpos, hlen.2.2, hlen.2.1⟩, rfl, ?_⟩
  dsimp only [App.ask]
  generalize env.answer s.calls = result
  split
  · rename_i hr
    simp only [Traffic.issue, if_true, hr, decide_false]
    rfl
  · rename_i hr
    have hr : result = 0 := not_not.mp hr
    simp only [Traffic.issue, if_true, hr, decide_true]
    rfl

/-! ## The streams -/

theorem traffics_flush (s : App) (now : Int) :
    Traffic.Steps env command s.traffic (flushEscapeCandidateAsPayload s now).traffic := by
  unfold flushEscapeCandidateAsPayload
  split
  · exact ReflTransGen.refl
  · dsimp only
    rw [traffic_schedule]
    exact (Traffic.Step.putToBle ([PLUS, PLUS, PLUS].take s.escapeState.count)).one

theorem traffics_openOrPut (s : App) (guardTimeMs : Nat) (b : RxByte) :
    Traffic.Steps env command s.traffic (openOrPut s guardTimeMs b).traffic := by
  unfold openOrPut
  split
  · exact ReflTransGen.refl
  · dsimp only
    split
    · rename_i hfull
      have hspace : s.hostToBleRing.spaceGet = 0 := by
        rw [RingBuf.put_fst] at hfull
        simp only [List.length_take, List.length_singleton] at hfull
        omega
      have hput : (putHostToBle s [b.ch]).traffic = s.traffic.note (.h2bPut [b.ch] []) := by
        unfold putHostToBle
        rw [RingBuf.put_of_full hspace, hspace]
        rfl
      have hstep : Traffic.Steps env command s.traffic (putHostToBle s [b.ch]).traffic := by
        rw [hput]
        exact (Traffic.Step.full [b.ch] hspace).one
      exact hstep
    · exact (Traffic.Step.putToBle [b.ch]).one

theorem traffics_dataModeRxByte (guardTimeMs : Nat) (s : App) (b : RxByte) :
    Traffic.Steps env command s.traffic (dataModeRxByte guardTimeMs s b).traffic := by
  unfold dataModeRxByte
  extract_lets t t'
  split
  · split
    · exact ReflTransGen.refl
    · have hflush : Traffic.Steps env command s.traffic (flushEscapeCandidateAsPayload t' b.flushNow).traffic :=
        traffics_flush t' b.flushNow
      exact hflush.trans (traffics_openOrPut _ guardTimeMs b)
  · exact traffics_openOrPut t guardTimeMs b

theorem traffics_handleDataModeRx (s : App) (data : List RxByte) :
    Traffic.Steps env command s.traffic (handleDataModeRx s data).traffic := by
  have hbytes : ∀ (data : List RxByte) (guardTimeMs : Nat) (s : App),
      Traffic.Steps env command s.traffic (data.foldl (dataModeRxByte guardTimeMs) s).traffic := by
    intro data guardTimeMs
    induction data with
    | nil => exact fun s => ReflTransGen.refl
    | cons b data ih => exact fun s => (traffics_dataModeRxByte guardTimeMs s b).trans (ih _)
  unfold handleDataModeRx
  dsimp only
  rw [traffic_refresh, traffic_schedule]
  exact hbytes data s.config.streamGuardTimeMs s

theorem traffics_escapeGuardWorkHandler (s : App) (now : Int) :
    Traffic.Steps env command s.traffic (escapeGuardWorkHandler s now).traffic := by
  unfold escapeGuardWorkHandler
  dsimp only
  split
  · exact ReflTransGen.refl
  split
  · split
    · exact ReflTransGen.refl
    · dsimp only [exitDataMode, atHostNotifyDataMode]
      rw [traffic_refresh, traffic_kickUartTx, traffic_queueCtrlLine]
      exact (Traffic.Step.clearSession s.controlRxPaused).one
  · rw [traffic_note rfl]
    exact traffics_flush s now

theorem traffics_profilePayloadReceived (s : App) (data : List Byte) :
    Traffic.Steps env command s.traffic (profilePayloadReceived s data).traffic := by
  have hreceive : Traffic.Steps env command s.traffic (countPayload s data).traffic := (Traffic.Step.receive data).one
  change Traffic.Steps env command s.traffic
    (if s.appState = .dataMode then queueDataBytes (countPayload s data) data
      else atHostNotifyReceive (countPayload s data) data).traffic
  generalize countPayload s data = t at hreceive
  split
  · refine hreceive.trans ?_
    unfold queueDataBytes
    split
    · exact ReflTransGen.refl
    · have hput : ∀ stats : BleStreamStats, stats = t.streamStats ∨ stats = BleStreamStats.backpressure t.streamStats →
          Traffic.Steps env command t.traffic
            ({ t with
              bleToHostRing := (t.bleToHostRing.put data).2
              streamStats :=
                { stats with
                  maxBleToHostDepth := updateMaxDepth (t.bleToHostRing.put data).2.sizeGet stats.maxBleToHostDepth }
              log := .b2hPut data (data.take t.bleToHostRing.spaceGet) :: t.log } : App).traffic := by
        rintro stats (rfl | rfl)
        · exact (Traffic.Step.putToHost data).one
        · exact (Traffic.Step.putToHost data).one
      dsimp only
      rw [traffic_kickUartTx]
      refine hput _ ?_
      split
      · exact .inr rfl
      · exact .inl rfl
  · rw [traffic_atHostNotifyReceive]
    exact hreceive

theorem traffics_notifyHandler (s : App) (data : Option (List Byte)) :
    Traffic.Steps env command s.traffic (notifyHandler s data).traffic := by
  cases data with
  | none => exact ReflTransGen.refl
  | some data => exact traffics_profilePayloadReceived s data

theorem traffics_serviceUartTx (s : App) (accept now : Int) :
    Traffic.Steps env command s.traffic (serviceUartTx s accept now).traffic := by
  have hactive := traffic_activate s now
  simp only [serviceUartTx]
  generalize activatePendingDataModeIfReady s now = t at hactive ⊢
  rw [← hactive]
  split
  · have hdrain : Traffic.Steps env command t.traffic
        ({ t with bleToHostRing := (fillFrom t.bleToHostRing accept).2.2,
                  log := .fill false (fillFrom t.bleToHostRing accept).2.1 :: t.log } : App).traffic :=
      (Traffic.Step.drain accept).one
    split
    · exact hdrain
    · rw [traffic_activate]
      exact hdrain
  · split
    · exact ReflTransGen.refl
    · rw [traffic_activate]
      exact ReflTransGen.refl

/-! ## The pump -/

theorem traffic_finishChunk (s : App) (chunk : List Byte) (ahead : Nat) :
    (finishChunk (s.note (.write chunk 0 ahead)) chunk.length).traffic = s.traffic.finish chunk 0 ahead := by
  unfold finishChunk
  rw [traffic_refresh]
  simp only [Traffic.finish, if_true]
  rfl

theorem traffic_failedChunk (s : App) (chunk : List Byte) {result : Int} (hr : result ≠ 0) (ahead : Nat) :
    (s.note (.write chunk result ahead)).traffic = s.traffic.finish chunk result ahead := by
  simp only [Traffic.finish, if_neg hr]
  rfl

/-- One pass up to what it does with the result. -/
theorem traffics_pass (s : App) (hn : s.nextChunk ≠ []) :
    ∃ t : App, (sendChunk env s).2 = t.note (.write s.nextChunk (sendChunk env s).1 s.hostToBleRing.claimed) ∧
      Traffic.Steps env command s.traffic (t.traffic.finish s.nextChunk (sendChunk env s).1 s.hostToBleRing.claimed) := by
  have hlen : s.nextChunk.length ≤ s.pm.payloadLen ∧ s.nextChunk.length ≤ BLE_HOST_SEND_MAX_LEN := by
    have hclaim := RingBuf.getClaim_length_le s.hostToBleRing s.pm.payloadLen
    simp only [App.nextChunk, List.length_take]
    omega
  have hpos : s.nextChunk.length ≠ 0 := fun hz => hn (List.eq_nil_of_length_eq_zero hz)
  simp only [sendChunk]
  generalize hc : ({ s with hostToBleRing := (s.hostToBleRing.getClaim s.pm.payloadLen).2 } : App) = c
  have hclaim : c.traffic = s.traffic.claim := by rw [← hc]; rfl
  have hpayload : c.pm.payloadLen = s.pm.payloadLen := by rw [← hc]
  refine ⟨(profileManagerSend env c s.nextChunk).2, rfl, ?_⟩
  rcases profileManagerSend_cases env c s.nextChunk with ⟨hsame, hne, hsize⟩ | ⟨w, hdata, hw, hresult, hissue⟩
  · rw [hsame, hclaim]
    refine (Traffic.Step.refused _ hne fun he => ?_).one
    rcases hsize he with h | h | h
    · exact hpos h
    · omega
    · omega
  · rw [hresult, hissue, hclaim]
    rw [hclaim] at hw
    exact (Traffic.Step.pumped (t := s.traffic) w c.calls hdata ⟨hw.conn, hw.idle, hw.pos, hw.fits, hw.buffer⟩).one

theorem traffics_bleWriteLoop (passes : Nat) (s : App) :
    Traffic.Steps env command s.traffic (bleWriteLoop env passes s).traffic := by
  induction passes generalizing s with
  | zero => exact ReflTransGen.refl
  | succ passes ih =>
      unfold bleWriteLoop
      split; · exact ReflTransGen.refl
      split; · exact ReflTransGen.refl
      split; · exact ReflTransGen.refl
      split
      · rename_i hnil
        have hempty : (s.hostToBleRing.getClaim s.pm.payloadLen).1 = [] := by
          rcases List.take_eq_nil_iff.mp hnil with hz | hempty
          · exact absurd hz (by decide)
          · exact hempty
        have hsame : ({ s with hostToBleRing := (s.hostToBleRing.getClaim s.pm.payloadLen).2 } : App).traffic = s.traffic := by
          rw [RingBuf.getClaim_of_nil hempty]
        rw [hsame]
      · rename_i hn
        obtain ⟨t, hsent, hpass⟩ := @traffics_pass env command s hn
        rcases hr : sendChunk env s with ⟨err, u⟩
        rw [hr] at hsent hpass
        dsimp only at hsent hpass ⊢
        subst hsent
        split
        · rename_i hok
          subst hok
          rw [← traffic_finishChunk] at hpass
          exact hpass.trans (ih _)
        · rename_i hfail
          rw [← traffic_failedChunk t s.nextChunk hfail] at hpass
          split
          · exact hpass
          · exact hpass

/-! ## The operations of the AT commands -/

section
variable (env)

theorem traffics_opConnect (s : App) (mac : Text) (addrType : Nat) :
    Traffic.Steps env command s.traffic (opConnect env s mac addrType).2.traffic := by
  have hcreate : ∀ (t : App) (peer : BtAddrLe), Traffic.Steps env command t.traffic (createConnection env t peer).2.traffic := by
    intro t peer
    have hstep : Traffic.Steps env command t.traffic _ :=
      (Traffic.Step.create ⟨t.conns, peer⟩ t.config.connIntervalMin t.config.connIntervalMax t.config.latency
        t.config.timeout (env.answer t.calls)).one
    simp only [createConnection]
    split
    · exact hstep
    · exact hstep
  unfold opConnect
  split; · exact ReflTransGen.refl
  split; · exact ReflTransGen.refl
  split; · exact ReflTransGen.refl
  split; · exact ReflTransGen.refl
  split
  · have hstop : (stopScanInternal env s false).2.traffic = s.traffic := traffic_stopScanInternal s false
    rcases hr : stopScanInternal env s false with ⟨err, t⟩
    rw [hr] at hstop
    dsimp only at hstop ⊢
    rw [← hstop]
    split
    · exact ReflTransGen.refl
    · exact hcreate t _
  · exact hcreate s _

theorem traffics_opDisconnect (s : App) (connIndex : Nat) :
    Traffic.Steps env command s.traffic (opDisconnect env s connIndex).2.traffic := by
  unfold opDisconnect
  split; · exact ReflTransGen.refl
  split
  · exact ReflTransGen.refl
  · rename_i conn _
    exact (Traffic.Step.disconnect conn (env.answer s.calls)).one

/-- A payload of the host is a write of its own. -/
theorem traffics_opSendPayload (hc : command) (s : App) (connIndex : Nat) (data : List Byte) :
    Traffic.Steps env command s.traffic (opSendPayload env s connIndex data).2.traffic := by
  unfold opSendPayload
  split; · exact ReflTransGen.refl
  rcases profileManagerSend_cases env s data with ⟨hsame, _, _⟩ | ⟨w, hdata, hw, _, hissue⟩
  · rw [hsame]
  · rw [hissue]
    exact (Traffic.Step.commanded w (env.answer s.calls) hw fun _ => hc).one

theorem traffics_opSetProfile (s : App) (service notify write : Text) :
    Traffic.Steps env command s.traffic (opSetProfile env s service notify write).2.traffic := by
  have hupdate : (bleHostSettingsUpdateProfile env s service notify write).2.traffic = s.traffic := by
    unfold bleHostSettingsUpdateProfile
    split
    · dsimp only
      rw [traffic_settingsSaveAll]
      rfl
    · rfl
  simp only [opSetProfile]
  split
  · rw [hupdate]
  · rw [profileManagerSetConfig, traffic_updatePayloadLen, hupdate]
    exact Traffic.Step.refit.one

theorem traffics_opSetMtu (s : App) (mtu : Nat) : Traffic.Steps env command s.traffic (opSetMtu env s mtu).2.traffic := by
  have hupdate : Traffic.Steps env command s.traffic (bleHostSettingsUpdateMtu env s mtu).2.traffic := by
    unfold bleHostSettingsUpdateMtu
    split
    · exact ReflTransGen.refl
    · rename_i hmtu
      rw [traffic_settingsSaveAll]
      exact (Traffic.Step.mtu mtu (by omega)).one
  simp only [opSetMtu]
  split
  · exact hupdate
  · exact hupdate.tail .refit

theorem traffics_opRequestMtu (s : App) (connIndex : Nat) :
    Traffic.Steps env command s.traffic (opRequestMtu env s connIndex).2.traffic := by
  unfold opRequestMtu
  split
  · exact ReflTransGen.refl
  · exact traffics_profileManagerRequestMtu s

theorem traffic_opSetConnParams (s : App) (connIndex minInterval maxInterval latency timeout : Nat) :
    (opSetConnParams env s connIndex minInterval maxInterval latency timeout).2.traffic = s.traffic := by
  unfold opSetConnParams
  split; · rfl
  split; · rfl
  rename_i conn _
  have hask : (s.ask env (.connParamUpdate conn minInterval maxInterval latency timeout)).2.traffic = s.traffic :=
    traffic_ask rfl s
  dsimp only
  split
  · exact hask
  · unfold bleHostSettingsUpdateConnParams
    split
    · exact hask
    · rw [traffic_settingsSaveAll]
      exact hask

theorem traffic_opGetStatus (s : App) : (opGetStatus env s).2.traffic = s.traffic := by
  unfold opGetStatus
  split
  · rfl
  · rfl

theorem traffic_opEnterDataMode (s : App) (connIndex : Nat) : (opEnterDataMode s connIndex).2.traffic = s.traffic := by
  unfold opEnterDataMode
  repeat' split
  all_goals rfl

theorem kept_traffics (hc : command) (t : Traffic) :
    AtHost.Kept (atOps env) atTx fun s => Traffic.Steps env command t s.traffic where
  startScan durationS filterName h := h.same (traffic_opStartScan _ durationS filterName)
  connect mac addrType h := h.trans (traffics_opConnect env _ mac addrType)
  disconnect connIndex h := h.trans (traffics_opDisconnect env _ connIndex)
  sendPayload connIndex data h := h.trans (traffics_opSendPayload env hc _ connIndex data)
  getStatus h := h.same (traffic_opGetStatus env _)
  getProfile h := h
  setProfile service notify write h := h.trans (traffics_opSetProfile env _ service notify write)
  setMtu mtu h := h.trans (traffics_opSetMtu env _ mtu)
  getMtu h := h
  requestMtu connIndex h := h.trans (traffics_opRequestMtu env _ connIndex)
  setConnParams connIndex minInterval maxInterval latency timeout h :=
    h.same (traffic_opSetConnParams env _ connIndex minInterval maxInterval latency timeout)
  enterDataMode connIndex text h := (h.same (traffic_opEnterDataMode _ connIndex)).same (traffic_queueCtrlLine _ text)
  getStreamStats h := h
  line text h := h.same (traffic_queueCtrlLine _ text)
  raw data h := h.same (traffic_queueCtrlBytes _ data)

/-! ## Events -/

theorem traffics_connected (s : App) (conn : Conn) (err : Nat) :
    Traffic.Steps env command (if err = 0 then s.traffic.opened conn else s.traffic) (connected env s conn err).traffic := by
  simp only [connected]
  by_cases he : err = 0
  · rw [if_pos he, if_neg (not_not.mpr he)]
    generalize ht : setState { s.note (.connected err) with link := .up conn } .connecting = t
    have hopened : ((profileManagerStart env (atHostNotifyConnected t) conn).2).traffic = s.traffic.opened conn := by
      rw [traffic_profileManagerStart, atHostNotifyConnected, traffic_queueCtrlLine, ← ht]
      rfl
    have hstart : Traffic.Steps env command (s.traffic.opened conn)
        (profileManagerStart env (atHostNotifyConnected t) conn).2.traffic := by
      rw [hopened]
    have hrequest : ∀ {t : App} {f : App → Int × App}, Traffic.Steps env command (s.traffic.opened conn) t.traffic →
        (∀ t, Traffic.Steps env command t.traffic (f t).2.traffic) → ∀ c : Bool,
        Traffic.Steps env command (s.traffic.opened conn) (if c then (f t).2 else t).traffic := by
      intro t f ht hf c
      split
      · exact ht.trans (hf t)
      · exact ht
    have hdataLen : ∀ t : App, Traffic.Steps env command t.traffic (profileManagerRequestDataLen env t).2.traffic := by
      intro t
      unfold profileManagerRequestDataLen
      split
      · exact ReflTransGen.refl
      · exact Traffic.Steps.same ReflTransGen.refl (traffic_ask rfl t)
    have hphy : ∀ t : App, Traffic.Steps env command t.traffic (profileManagerRequestPhy env t).2.traffic := by
      intro t
      unfold profileManagerRequestPhy
      split
      · exact ReflTransGen.refl
      · exact Traffic.Steps.same ReflTransGen.refl (traffic_ask rfl t)
    split
    · exact hstart.same (traffic_queueCtrlLine _ _)
    · exact hrequest (hrequest (hrequest hstart traffics_profileManagerRequestMtu _) hdataLen _) hphy _
  · rw [if_neg he, if_pos he]
    refine Traffic.Steps.same (ReflTransGen.refl : Traffic.Steps env command s.traffic s.traffic) ?_
    rw [atHostNotifyFunctionError, traffic_queueCtrlLine]
    cases hcur : s.currentConn with
    | none => simp only [App.note, hcur]; rfl
    | some current => simp only [App.note, hcur]; rfl

theorem profileManagerReset_paused (s : App) : (profileManagerReset env s).controlRxPaused = s.controlRxPaused := by
  unfold profileManagerReset
  cases s.pm.conn with
  | none => rfl
  | some conn => rfl

theorem traffic_disconnected {conn : Conn} (hc : s.currentConn = some conn) (hpc : s.pm.conn = some conn)
    (reason : Nat) : (disconnected env s conn reason).traffic = s.traffic.closed reason s.controlRxPaused := by
  obtain ⟨t, ht, hcount, hcur, hpm, hpaused⟩ : ∃ t : App,
      t = (if reason ≠ REMOTE_USER_TERM_CONN then
        { s with
          link := .down
          streamStats :=
            { s.streamStats with
              unexpectedDisconnectCount := addU32 s.streamStats.unexpectedDisconnectCount 1 } }
        else { s with link := .down }) ∧
      t.traffic = s.traffic.countDisconnect reason ∧ t.currentConn = some conn ∧ t.pm.conn = some conn ∧
      t.controlRxPaused = s.controlRxPaused := by
    refine ⟨_, rfl, ?_⟩
    unfold Traffic.countDisconnect
    split
    · exact ⟨rfl, hc, hpc, rfl⟩
    · exact ⟨rfl, hc, hpc, rfl⟩
  have hreset : (profileManagerReset env t).traffic = (s.traffic.countDisconnect reason).cleared.refit := by
    rw [traffic_profileManagerReset, hcount]
  have hrest : (profileManagerReset env t).controlRxPaused = s.controlRxPaused := by
    rw [profileManagerReset_paused, hpaused]
  simp only [disconnected]
  rw [traffic_refresh, atHostNotifyDisconnected, traffic_queueCtrlLine, ← ht, if_pos hcur,
    profileManagerHandleDisconnected, if_pos hpm]
  generalize profileManagerReset env t = r at hreset hrest
  rw [Traffic.closed, ← hreset, ← hrest]
  rfl

/-- The head of a handler is what the stack reports; a pending work item that is taken leaves the traffic alone. -/
theorem traffics_stepApp (hl : LinkHeld s) (e : Event) :
    Traffic.Steps env command (s.report e) (stepApp env s e).traffic := by
  have hrefl : Traffic.Steps env command s.traffic s.traffic := ReflTransGen.refl
  have hsame : ∀ {t : App}, t.traffic = s.traffic → Traffic.Steps env command s.traffic t.traffic := fun he => hrefl.same he
  cases e with
  | uart tx rx => exact hrefl
  | lineState dtr => exact hsame (traffic_usbMessageCb s dtr)
  | bleWriteWork =>
      simp only [stepApp]
      split
      · exact traffics_bleWriteLoop _ { s with bleWriteWork := false }
      · exact hrefl
  | bleWriteRetryWork => exact hsame (traffic_ite rfl rfl)
  | bleWriteCoalesceWork => exact hsame (traffic_ite rfl rfl)
  | escapeGuardWork now =>
      simp only [stepApp]
      split
      · exact traffics_escapeGuardWorkHandler { s with escapeGuardWork := none } now
      · exact hrefl
  | scanStopWork => exact hsame (traffic_ite (traffic_stopScanInternal { s with scanStopWork := none } true) rfl)
  | deviceFound addr rssi type ad => exact hsame (traffic_deviceFound s addr rssi type ad)
  | connected err =>
      cases h : s.link with
      | creating conn =>
          simp only [App.report, stepApp, h]
          exact traffics_connected env s conn err
      | _ => simp only [App.report, stepApp, h]; exact hrefl
  | disconnected reason =>
      cases h : s.link with
      | up conn =>
          simp only [App.report, stepApp, h]
          rw [traffic_disconnected env (hl.up h).1 (hl.up h).2 reason]
      | _ => simp only [App.report, stepApp, h]; exact hrefl
  | leParamUpdated interval latency timeout =>
      simp only [App.report, stepApp]
      split
      · exact hsame (traffic_leParamUpdated s _ interval latency timeout)
      · exact hrefl
  | attMtu mtu => exact ReflTransGen.refl
  | serviceDiscover attr =>
      simp only [App.report, stepApp, whileUp]
      split
      · exact hsame (traffic_serviceDiscoverCb s attr)
      · exact hrefl
  | characteristicDiscover attr =>
      simp only [App.report, stepApp, whileUp]
      split
      · exact hsame (traffic_characteristicDiscoverCb s attr)
      · exact hrefl
  | subscribe err =>
      simp only [App.report, stepApp, whileUp]
      split
      · exact hsame (traffic_subscribeHandler s err)
      · exact hrefl
  | notify data =>
      simp only [App.report, stepApp, whileUp]
      split
      · exact traffics_notifyHandler s data
      · exact hrefl
  | exchange err =>
      cases h : s.link with
      | up conn =>
          simp only [App.report, stepApp, whileUp, h]
          exact traffics_exchangeHandler s err
      | _ => simp only [App.report, stepApp, whileUp, h]; exact hrefl
  | write err =>
      cases h : s.link with
      | up conn =>
          simp only [App.report, stepApp, whileUp, h]
          rw [traffic_writeHandler]
      | _ => simp only [App.report, stepApp, whileUp, h]; exact hrefl

theorem traffics_controlUartIsr (hc : command) (f : Firmware) (tx : Option (Int × Int)) (rx : Option (List RxByte)) :
    Traffic.Steps env command f.app.traffic (controlUartIsr env f tx rx).app.traffic := by
  have htx : Traffic.Steps env command f.app.traffic (controlUartIsrTx f tx).app.traffic := by
    unfold controlUartIsrTx
    split
    · split
      · exact traffics_serviceUartTx f.app _ _
      · exact ReflTransGen.refl
    · exact ReflTransGen.refl
  simp only [controlUartIsr]
  generalize controlUartIsrTx f tx = g at htx ⊢
  split
  · split
    · refine htx.trans ?_
      simp only [controlUartIsrRx]
      split; · exact ReflTransGen.refl
      split; · exact ReflTransGen.refl
      split
      · have hrx : ∀ (o : Obs) (data : List RxByte), o.isTraffic = false →
            Traffic.Steps env command g.app.traffic (handleDataModeRx (g.app.note o) data).traffic := by
          intro o data ho
          have hsteps : Traffic.Steps env command (g.app.note o).traffic _ := traffics_handleDataModeRx (g.app.note o) data
          rw [traffic_note ho] at hsteps
          exact hsteps
        exact hrx _ _ rfl
      · have hkept : ∀ bytes : List Byte, Traffic.Steps env command g.app.traffic
            (AtHost.atHostRxBytes (atOps env) atTx ⟨g.host, g.app.note (.atRx bytes), g.trace⟩ bytes).ctx.traffic :=
          fun bytes => (kept_traffics env hc g.app.traffic).atHostRxBytes (w := ⟨g.host, g.app.note (.atRx bytes), g.trace⟩)
            bytes ReflTransGen.refl
        exact hkept _
    · exact htx
  · exact htx

/-- A step of the firmware is a report and steps of the traffic. -/
theorem step_traffics (env : Env) {f : Firmware} (hl : LinkHeld f.app) (e : Event) :
    Traffic.Steps env e.isUart (f.app.report e) (step env f e).app.traffic := by
  cases e with
  | uart tx rx => exact traffics_controlUartIsr env rfl f tx rx
  | _ => exact traffics_stepApp env hl _

end

/-! ## Observations -/

theorem news_append (env : Env) {f : Firmware} (h : Reachable env f) (e : Event) :
    (step env f e).app.log = news env f e ++ f.app.log := by
  have hcontrols : Controls env anyReport f.app (step env f e).app := step_controls h.linkHeld fun _ _ => trivial
  obtain ⟨new, hnew⟩ : f.app.log <:+ (step env f e).app.log :=
    Runs.invariant (P := fun s => f.app.log <:+ s.log) (fun hc hs => hs.trans hc.log_suffix) hcontrols
      (List.suffix_refl f.app.log)
  have hlen : (step env f e).app.log.length - f.app.log.length = new.length := by
    rw [← hnew, List.length_append]
    omega
  rw [news, hlen, ← hnew, List.take_left']
  rfl

theorem news_traffic (env : Env) {f : Firmware} (h : Reachable env f) (e : Event) :
    (step env f e).app.traffic.log = (news env f e).filter Obs.isTraffic ++ f.app.traffic.log := by
  change (step env f e).app.log.filter Obs.isTraffic = _
  rw [news_append env h e, List.filter_append]
  rfl

theorem Reachable.log_suffix {f : Firmware} (h : Reachable env f) (es : List Event) :
    f.app.log <:+ (Runs.run (step env) f es).app.log := by
  induction es generalizing f with
  | nil => exact List.suffix_refl _
  | cons e es ih =>
      have hstep : f.app.log <:+ (step env f e).app.log := ⟨news env f e, (news_append env h e).symm⟩
      exact hstep.trans (ih (h.next env e))

end BleAtHost.Main
