import BleAtHost.AtHost.Lemmas.Kept
import BleAtHost.Main.Actions

/-!
# Handlers are sequences of actions

There is one lemma for each function of the source.
-/

namespace BleAtHost.Main

open Relation

section
variable (env : Env) (report : App → StackReport → Prop)

abbrev Acts : App → App → Prop := ReflTransGen (Act env report)

end

variable {env : Env} {report : App → StackReport → Prop} {s s' : App}

theorem Act.acts (h : Act env report s s') : Acts env report s s' := ReflTransGen.single h

theorem acts_ite {c : Prop} [Decidable c] {t u : App} (ht : c → Acts env report s t) (hu : ¬c → Acts env report s u) :
    Acts env report s (if c then t else u) := by
  split
  · rename_i hc; exact ht hc
  · rename_i hc; exact hu hc

/-! ## Output -/

theorem kickUartTx_eq (s : App) : ∃ irq, kickUartTx s = { s with txIrqEnabled := irq } := by
  unfold kickUartTx
  split
  · exact ⟨s.txIrqEnabled, rfl⟩
  · exact ⟨true, rfl⟩

/-- Observations of the output queues. -/
def Obs.Output : Obs → Prop
  | .ctrlPut _ _ | .ctrlLine _ _ | .b2hPut _ _ => True
  | _ => False

theorem queueCtrlBytes_eq (s : App) (data : List Byte) :
    ∃ ring irq new, (∀ o ∈ new, Obs.Output o) ∧
      queueCtrlBytes s data = { s with ctrlTxRing := ring, txIrqEnabled := irq, log := new ++ s.log } := by
  unfold queueCtrlBytes
  split
  · exact ⟨s.ctrlTxRing, s.txIrqEnabled, [], by simp, rfl⟩
  · obtain ⟨irq, he⟩ := kickUartTx_eq
      { s with
        ctrlTxRing := (s.ctrlTxRing.put data).2
        log := .ctrlPut data (data.take s.ctrlTxRing.spaceGet) :: s.log }
    exact ⟨_, irq, [.ctrlPut data (data.take s.ctrlTxRing.spaceGet)], by simp [Obs.Output], he⟩

theorem queueCtrlLine_eq (s : App) (line : Text) :
    ∃ ring irq new, (∀ o ∈ new, Obs.Output o) ∧
      queueCtrlLine s line = { s with ctrlTxRing := ring, txIrqEnabled := irq, log := new ++ s.log } := by
  obtain ⟨ring, irq, new, hn, he⟩ := queueCtrlBytes_eq s line
  obtain ⟨ring', irq', new', hn', he'⟩ := queueCtrlBytes_eq (queueCtrlBytes s line) newline
  have hline : queueCtrlLine s line = (queueCtrlBytes (queueCtrlBytes s line) newline).note
      (.ctrlLine line (line.length + newline.length ≤ s.ctrlTxRing.spaceGet)) := rfl
  refine ⟨ring', irq',
    .ctrlLine line (line.length + newline.length ≤ s.ctrlTxRing.spaceGet) :: (new' ++ new), ?_, ?_⟩
  · intro o ho
    rcases List.mem_cons.mp ho with rfl | ho
    · trivial
    · rcases List.mem_append.mp ho with ho | ho
      · exact hn' o ho
      · exact hn o ho
  · rw [hline, he', he]
    simp only [App.note, List.cons_append, List.append_assoc]

theorem queueDataBytes_eq (s : App) (data : List Byte) :
    ∃ ring stats irq new, (∀ o ∈ new, Obs.Output o) ∧
      queueDataBytes s data =
        { s with bleToHostRing := ring, streamStats := stats, txIrqEnabled := irq, log := new ++ s.log } := by
  unfold queueDataBytes
  split
  · exact ⟨s.bleToHostRing, s.streamStats, s.txIrqEnabled, [], by simp, rfl⟩
  · rcases s.bleToHostRing.put data with ⟨written, ring⟩
    dsimp only
    generalize BleStreamStats.mk _ _ _ _ _ _ _ _ _ = stats
    obtain ⟨irq, he⟩ := kickUartTx_eq
      { s with
        bleToHostRing := ring
        streamStats := stats
        log := .b2hPut data (data.take s.bleToHostRing.spaceGet) :: s.log }
    exact ⟨ring, stats, irq, [.b2hPut data (data.take s.bleToHostRing.spaceGet)], by simp [Obs.Output], he⟩

theorem mayQueue_of_not (h : s.appState ≠ .dataMode) : MayQueue s := fun hm => absurd hm h

theorem mayQueue_of_callback {kind : Callback} {log : List Obs} (h : s.log = .callback kind :: log) :
    MayQueue s := fun _ => ⟨kind, by simp [h]⟩

theorem acts_line (text : Text) (h : s.appState ≠ .dataMode) : Acts env report s (queueCtrlLine s text) :=
  (Act.line text (mayQueue_of_not h)).acts

/-! ## The mode -/

theorem restState_ne_dataMode (s : App) : s.restState ≠ .dataMode := by
  unfold App.restState
  split
  · simp
  · simp

theorem restState_ne_scanning (s : App) : s.restState ≠ .scanning := by
  unfold App.restState
  split
  · simp
  · simp

theorem announceReady_mode (hm : s.appState ≠ .dataMode) : (announceReady s).appState ≠ .dataMode := by
  simp only [announceReady]
  split
  · simp [setState]
  · exact hm

/-- No action enters data mode. -/
theorem Act.mode (h : Act env report s s') (hm : s.appState ≠ .dataMode) : s'.appState ≠ .dataMode := by
  cases h with
  | line text =>
      obtain ⟨_, _, _, _, he⟩ := queueCtrlLine_eq s text
      rw [he]; exact hm
  | raw data =>
      obtain ⟨_, _, _, _, he⟩ := queueCtrlBytes_eq s data
      rw [he]; exact hm
  | payloadInData data hd => exact absurd hd hm
  | kick =>
      obtain ⟨_, he⟩ := kickUartTx_eq s
      rw [he]; exact hm
  | lineState dtr => cases dtr <;> exact hm
  | readyFound => exact announceReady_mode hm
  | subscribed => exact announceReady_mode hm
  | errorState => simp [setState]
  | disconnecting => simp [setState, App.ask]
  | enterAccepted text =>
      obtain ⟨_, _, _, _, he⟩ :=
        queueCtrlLine_eq { s with dataModePendingEnter := true, log := .enterAccepted :: s.log } text
      rw [he]; exact hm
  | scanning => simp [setState]
  | scanStopped => exact restState_ne_dataMode _
  | create peer =>
      simp only [createConnection]
      split
      · exact hm
      · simp [setState]
  | connectFailed => simp
  | opened => simp
  | closed => simp [closeConnection, setState]
  | flow =>
      unfold refreshUartRxFlowControl
      repeat' split
      all_goals exact hm
  | saved key value =>
      simp only [settingsSaveOne]
      split
      · exact hm
      · exact hm
  | _ => exact hm

theorem Acts.mode (h : Acts env report s s') (hm : s.appState ≠ .dataMode) : s'.appState ≠ .dataMode := by
  induction h with
  | refl => exact hm
  | tail _ hact ih => exact hact.mode ih

theorem Acts.extend {s₀ : App} (h : Acts env report s₀ s ∧ s.appState ≠ .dataMode) (hs : Acts env report s s') :
    Acts env report s₀ s' ∧ s'.appState ≠ .dataMode := ⟨h.1.trans hs, hs.mode h.2⟩

/-! ## The callbacks of the profile manager -/

/-- The line is queued once the flag is set. -/
theorem acts_profileReady (ha : Act env report s (announceReady s)) :
    Acts env report s (profileReady { s with pm := { s.pm with ready := true } }) := by
  refine ha.acts.tail (.line (ascii "+IND=BLMN,0") ?_)
  simp only [announceReady]
  split
  · exact mayQueue_of_callback rfl
  · exact mayQueue_of_callback rfl

theorem acts_profileError (s : App) : Acts env report s (profileError s) := by
  have hcall : Acts env report s (s.note (.callback .error)) := (Act.callback .error).acts
  simp only [profileError]
  split
  · rename_i hc
    have hset : Act env report (s.note (.callback .error)) (setState (s.note (.callback .error)) .controlReady) :=
      .errorState hc.1 hc.2
    exact (hcall.tail hset).tail (.line _ (mayQueue_of_callback rfl))
  · exact hcall.tail (.line _ (mayQueue_of_callback rfl))

theorem acts_profileMtuUpdated (s : App) (payloadLen : Nat) : Acts env report s (profileMtuUpdated s payloadLen) :=
  (Act.callback .mtuUpdated).acts.tail (.line _ (mayQueue_of_callback rfl))

theorem acts_profilePayloadReceived (s : App) (data : List Byte) :
    Acts env report s (profilePayloadReceived s data) := by
  change Acts env report s
    (if s.appState = .dataMode then queueDataBytes (countPayload s data) data
      else atHostNotifyReceive (countPayload s data) data)
  refine acts_ite (fun h => (Act.payloadInData data h).acts) fun h => ?_
  have hpayload : Acts env report s (countPayload s data) := (Act.payload data h).acts
  unfold atHostNotifyReceive
  exact acts_ite (fun _ => hpayload) fun _ => hpayload.trans (acts_line _ h)

/-! ## The profile manager -/

/-- A change of the profile manager that does not touch the way of a payload. -/
theorem acts_manager {pm : ProfileManagerState} (h : s.pm.SameRoute pm) : Acts env report s { s with pm := pm } :=
  (Act.manager pm h).acts

theorem updatePayloadLen_pos (s : App) : 0 < (updatePayloadLen s).pm.payloadLen := by
  unfold updatePayloadLen
  dsimp only
  generalize min (if s.pm.conn.isSome = true then s.attMtu else 23) (if s.config.mtu < 23 then 23 else s.config.mtu) = attMtu
  split
  · omega
  · omega

theorem acts_updatePayloadLen (s : App) : Acts env report s (updatePayloadLen s) :=
  acts_manager ⟨rfl, rfl, rfl, rfl, rfl, rfl, fun _ => updatePayloadLen_pos s⟩

theorem acts_ask (call : StackCall) (h : call.Plain) (s : App) : Acts env report s (s.ask env call).2 :=
  (Act.ask call h).acts

theorem acts_notifyHandler {conn : Conn} (h : s.link = .up conn) (data : Option (List Byte))
    (hr : data = none → report s (.subscription false)) : Acts env report s (notifyHandler s data) := by
  cases data with
  | none => exact (Act.unsubscribed conn h (hr rfl)).acts
  | some data => exact acts_profilePayloadReceived s data

theorem acts_subscribeHandler {conn : Conn} (h : s.link = .up conn) (err : Nat)
    (hr : report s (.subscription (err = 0))) : Acts env report s (subscribeHandler s err) := by
  unfold subscribeHandler
  split
  · rename_i he
    have hset : Acts env report s { s with pm := { s.pm with ready := false } } :=
      (Act.unsubscribed conn h (by simpa [he] using hr)).acts
    exact hset.trans (acts_profileError _)
  · rename_i he
    have he : err = 0 := by simpa using he
    exact acts_profileReady (.subscribed conn h (by simpa [he] using hr))

section
variable (env)

theorem acts_subscribeNotifyCharacteristic (hn : s.pm.notifyFound) (hw : s.pm.writeFound) :
    Acts env report s (subscribeNotifyCharacteristic env s).2 := by
  have ha : Acts env report s (s.ask env (.gattSubscribe s.pm.conn s.pm.notifyValueHandle)).2 :=
    (Act.subscribe hn hw).acts
  simp only [subscribeNotifyCharacteristic]
  split
  · exact ha.trans (acts_profileError _)
  · exact ha

theorem acts_characteristicDiscoverCb {conn : Conn} (h : s.link = .up conn) (attr : Option GattChrc)
    (hr : ∀ chrc, attr = some chrc → report s (.characteristic chrc)) :
    Acts env report s (characteristicDiscoverCb env s attr) := by
  unfold characteristicDiscoverCb
  cases attr with
  | none =>
      dsimp only
      split; · exact acts_profileError s
      rename_i hn
      split; · exact acts_profileError s
      rename_i hw
      have hn : s.pm.notifyFound = true := by simpa using hn
      have hw : s.pm.writeFound = true := by simpa using hw
      split
      · exact acts_subscribeNotifyCharacteristic env hn hw
      · exact acts_profileReady (.readyFound conn h hn hw)
  | some chrc =>
      dsimp only
      split
      · exact acts_profileError s
      · exact (Act.found chrc conn h (hr chrc rfl)).acts

theorem acts_startCharacteristicDiscovery (s : App) : Acts env report s (startCharacteristicDiscovery env s).2 := by
  simp only [startCharacteristicDiscovery]
  generalize hp : ({ s.pm with characteristicDiscoverParams := _ } : ProfileManagerState) = pm
  have hs : Acts env report s { s with pm := pm } := acts_manager (by rw [← hp]; exact ⟨rfl, rfl, rfl, rfl, rfl, rfl, id⟩)
  split
  · exact (hs.trans (acts_ask _ (by exact True.intro) _)).trans (acts_profileError _)
  · exact hs.trans (acts_ask _ (by exact True.intro) _)

theorem acts_serviceDiscoverCb (s : App) (attr : Option GattService) :
    Acts env report s (serviceDiscoverCb env s attr) := by
  unfold serviceDiscoverCb
  cases attr with
  | none =>
      dsimp only
      split
      · exact acts_profileError s
      · exact acts_startCharacteristicDiscovery env s
  | some service =>
      dsimp only
      split; · exact acts_profileError s
      split
      · exact acts_manager ⟨rfl, rfl, rfl, rfl, rfl, rfl, id⟩
      · exact ReflTransGen.refl

theorem acts_exchangeHandler (s : App) (err : Nat) : Acts env report s (exchangeHandler s err) := by
  have h1 : Acts env report s { s with pm := { s.pm with exchangeInProgress := false } } :=
    acts_manager ⟨rfl, rfl, rfl, rfl, rfl, rfl, id⟩
  simp only [exchangeHandler]
  refine ReflTransGen.trans ?_ (acts_manager ⟨rfl, rfl, rfl, rfl, rfl, rfl, id⟩)
  split
  · exact (h1.trans (acts_updatePayloadLen _)).trans (acts_profileMtuUpdated _ _)
  · exact h1

theorem acts_writeHandler (s : App) (err : Nat) : Acts env report s (writeHandler s err) := by
  have h1 : Acts env report s { s with pm := { s.pm with writeInProgress := false } } :=
    acts_manager ⟨rfl, rfl, rfl, rfl, rfl, rfl, id⟩
  simp only [writeHandler]
  exact acts_ite (fun _ => h1.trans (acts_profileError _)) fun _ => h1

theorem acts_profileManagerRequestMtu (s : App) : Acts env report s (profileManagerRequestMtu env s).2 := by
  unfold profileManagerRequestMtu
  split
  · exact ReflTransGen.refl
  · rename_i conn _
    split
    · exact ReflTransGen.refl
    · have h1 : Acts env report s { s with pm := { s.pm with exchangeInProgress := true, exchangeParams := true } } :=
        acts_manager ⟨rfl, rfl, rfl, rfl, rfl, rfl, id⟩
      have h2 := h1.trans ((Act.ask (.gattExchangeMtu conn) True.intro).acts)
      have hended : ∀ t : App, Acts env report t
          { t with pm := { t.pm with exchangeInProgress := false, exchangeParams := false } } :=
        fun t => acts_manager ⟨rfl, rfl, rfl, rfl, rfl, rfl, id⟩
      dsimp only [App.ask] at h2 ⊢
      split
      · exact ((h2.trans (hended _)).trans (acts_updatePayloadLen _)).trans (acts_profileMtuUpdated _ _)
      · split
        · exact h2.trans (hended _)
        · exact h2

theorem acts_profileManagerRequestDataLen (s : App) : Acts env report s (profileManagerRequestDataLen env s).2 := by
  unfold profileManagerRequestDataLen
  split
  · exact ReflTransGen.refl
  · exact acts_ask _ (by exact True.intro) s

theorem acts_profileManagerRequestPhy (s : App) : Acts env report s (profileManagerRequestPhy env s).2 := by
  unfold profileManagerRequestPhy
  split
  · exact ReflTransGen.refl
  · exact acts_ask _ (by exact True.intro) s

theorem acts_profileManagerSend (s : App) (data : List Byte) : Acts env report s (profileManagerSend env s data).2 := by
  unfold profileManagerSend
  split; · exact ReflTransGen.refl
  rename_i conn hc
  split; · exact ReflTransGen.refl
  rename_i hs
  simp only [Bool.or_eq_true, Bool.not_eq_true', not_or, Bool.not_eq_false] at hs
  split; · exact ReflTransGen.refl
  split; · exact (Act.writeWithoutResponse conn data hc hs.1.1 hs.1.2).acts
  split; · exact ReflTransGen.refl
  dsimp only
  generalize hp : ({ s.pm with
    pendingWrite := data, pendingWriteLen := data.length, writeParams := _, writeInProgress := true } :
      ProfileManagerState) = pm
  have hroute : s.pm.SameRoute pm := by rw [← hp]; exact ⟨rfl, rfl, rfl, rfl, rfl, rfl, id⟩
  have hset : Acts env report s { s with pm := pm } := acts_manager hroute
  have hwrite : Act env report { s with pm := pm } (({ s with pm := pm } : App).ask env (.gattWrite conn pm.writeValueHandle data)).2 :=
    .write conn data (hroute.conn.trans hc) (by rw [hroute.ready]; exact hs.1.1) (by rw [hroute.writeFound]; exact hs.1.2)
  rw [hroute.writeValueHandle] at hwrite
  have ha := hset.tail hwrite
  refine acts_ite (fun _ => ha.trans ?_) fun _ => ha
  exact acts_manager ⟨rfl, rfl, rfl, rfl, rfl, rfl, id⟩

/-! ## The operations of the AT commands -/

theorem acts_settingsSaveAll (items : List (SettingsKey × List Byte)) (s : App) :
    Acts env report s (settingsSaveAll env s items).2 := by
  induction items generalizing s with
  | nil => exact ReflTransGen.refl
  | cons item items ih =>
      obtain ⟨key, value⟩ := item
      have ho : Acts env report s (settingsSaveOne env s key value).2 := (Act.saved key value).acts
      rcases hr : settingsSaveOne env s key value with ⟨err, s'⟩
      rw [hr] at ho
      simp only [settingsSaveAll, hr]
      split
      · exact ho
      · exact ho.trans (ih s')

theorem acts_opSetProfile (s : App) (service notify write : Text) :
    Acts env report s (opSetProfile env s service notify write).2 := by
  have hu : Acts env report s (bleHostSettingsUpdateProfile env s service notify write).2 := by
    unfold bleHostSettingsUpdateProfile
    split
    · exact (Act.profile _).acts.trans (acts_settingsSaveAll env _ _)
    · exact ReflTransGen.refl
  rcases hr : bleHostSettingsUpdateProfile env s service notify write with ⟨err, s'⟩
  rw [hr] at hu
  simp only [opSetProfile, hr]
  split
  · exact hu
  · exact hu.trans (acts_updatePayloadLen _)

theorem acts_opSetMtu (s : App) (mtu : Nat) : Acts env report s (opSetMtu env s mtu).2 := by
  have hu : Acts env report s (bleHostSettingsUpdateMtu env s mtu).2 := by
    unfold bleHostSettingsUpdateMtu
    split
    · exact ReflTransGen.refl
    · have hset : Acts env report s { s with config := { s.config with mtu := mtu } } :=
        (Act.config mtu s.config.connIntervalMin s.config.connIntervalMax s.config.latency s.config.timeout).acts
      exact hset.trans (acts_settingsSaveAll env _ _)
  rcases hr : bleHostSettingsUpdateMtu env s mtu with ⟨err, s'⟩
  rw [hr] at hu
  simp only [opSetMtu, hr]
  split
  · exact hu
  · exact hu.trans (acts_updatePayloadLen _)

theorem acts_opSetConnParams (s : App) (connIndex minInterval maxInterval latency timeout : Nat) :
    Acts env report s (opSetConnParams env s connIndex minInterval maxInterval latency timeout).2 := by
  unfold opSetConnParams
  split; · exact ReflTransGen.refl
  split; · exact ReflTransGen.refl
  rename_i conn _
  have ha : Acts env report s (s.ask env (.connParamUpdate conn minInterval maxInterval latency timeout)).2 :=
    acts_ask _ (by exact True.intro) s
  dsimp only
  split
  · exact ha
  · refine ha.trans ?_
    unfold bleHostSettingsUpdateConnParams
    split
    · exact ReflTransGen.refl
    · exact (Act.config _ minInterval maxInterval latency timeout).acts.trans (acts_settingsSaveAll env _ _)

theorem acts_opStartScan (h : s.appState ≠ .dataMode) (durationS : Nat) (filterName : Option Text) :
    Acts env report s (opStartScan env s durationS filterName).2 := by
  unfold opStartScan
  split; · exact ReflTransGen.refl
  rename_i hc
  have hc : s.currentConn = none := by simpa using hc
  split; · exact ReflTransGen.refl
  split; · exact ReflTransGen.refl
  generalize snprintk BLE_HOST_SCAN_FILTER_MAX_LEN (filterName.getD []) = filter
  have hs : Acts env report s { clearScanCache s with scanFilterName := filter } := (Act.cache _ _ filter).acts
  have ha := hs.trans (acts_ask .scanStart True.intro _)
  dsimp only
  split
  · exact ha
  · exact ha.tail (.scanning durationS hc h)

/-- The work item is cancelled before the radio is stopped, so it may have been taken before. -/
theorem acts_stopScanInternal (s : App) (timer : Option Nat) (ht : timer = s.scanStopWork ∨ timer = none)
    (emitComplete : Bool) :
    Acts env report s (stopScanInternal env { s with scanStopWork := timer } emitComplete).2 := by
  unfold stopScanInternal
  split
  · rename_i hscan
    rcases ht with rfl | rfl
    · exact ReflTransGen.refl
    · have hscan : s.appState ≠ .scanning := hscan
      exact (Act.scanTimer hscan).acts
  · rename_i hscan
    have hscan : s.appState = .scanning := by simpa using hscan
    dsimp only [App.ask]
    split
    · rename_i hr
      have hr : ¬(env.answer s.calls = 0 ∨ env.answer s.calls = -EALREADY) := by tauto
      exact (Act.scanStuck hscan hr).acts
    · rename_i hr
      have hr : env.answer s.calls = 0 ∨ env.answer s.calls = -EALREADY := by tauto
      have hstop : Acts env report s (setState ({ s with scanStopWork := none }.ask env .scanStop).2 s.restState) :=
        (Act.scanStopped hscan hr).acts
      refine acts_ite (fun _ => hstop.trans (acts_line _ ?_)) fun _ => hstop
      exact hstop.mode (by rw [hscan]; simp)

theorem stopScanInternal_currentConn (s : App) (emitComplete : Bool) :
    (stopScanInternal env s emitComplete).2.currentConn = s.currentConn := by
  have hline : ∀ t : App, (atHostNotifyScanComplete t).currentConn = t.currentConn := by
    intro t
    obtain ⟨_, _, _, _, he⟩ := queueCtrlLine_eq t (ascii "+IND=SCED")
    rw [atHostNotifyScanComplete, he]
  unfold stopScanInternal
  split; · rfl
  dsimp only
  split; · rfl
  cases emitComplete with
  | false => rfl
  | true => exact hline _

theorem acts_opConnect (s : App) (mac : Text) (addrType : Nat) : Acts env report s (opConnect env s mac addrType).2 := by
  unfold opConnect
  split; · exact ReflTransGen.refl
  rename_i hc
  have hc : s.currentConn = none := by simpa using hc
  split; · exact ReflTransGen.refl
  split; · exact ReflTransGen.refl
  split; · exact ReflTransGen.refl
  split
  · have hs : Acts env report s (stopScanInternal env s false).2 :=
      acts_stopScanInternal env s s.scanStopWork (Or.inl rfl) false
    have hsc := stopScanInternal_currentConn env s false
    rcases hr : stopScanInternal env s false with ⟨err, s'⟩
    rw [hr] at hs hsc
    dsimp only
    split
    · exact hs
    · exact hs.tail (.create _ (hsc.trans hc))
  · exact (Act.create _ hc).acts

theorem acts_opDisconnect (h : s.appState ≠ .dataMode) (connIndex : Nat) :
    Acts env report s (opDisconnect env s connIndex).2 := by
  unfold opDisconnect
  split; · exact ReflTransGen.refl
  split
  · exact ReflTransGen.refl
  · rename_i conn hc
    exact (Act.disconnecting conn hc h).acts

theorem acts_opGetStatus (s : App) : Acts env report s (opGetStatus env s).2 := by
  unfold opGetStatus
  split
  · exact ReflTransGen.refl
  · exact ReflTransGen.refl

/-- The request and the line that answers it. -/
theorem acts_opEnterDataMode (h : s.appState ≠ .dataMode) (connIndex : Nat) (text : Text) :
    Acts env report s (queueCtrlLine (opEnterDataMode s connIndex).2 text) := by
  have hline : Acts env report s (queueCtrlLine s text) := acts_line text h
  unfold opEnterDataMode
  split; · exact hline
  split; · exact hline
  rename_i hc
  split; · exact hline
  rename_i hm
  split; · exact hline
  rename_i he
  push Not at hc hm
  have he : profileManagerCanEnterDataMode s.pm = true := by simpa using he
  have hp : s.dataModePendingEnter = false := by simpa using hm.2
  exact (Act.enterAccepted text he hc.1 h hp).acts

theorem acts_opSendPayload (s : App) (connIndex : Nat) (data : List Byte) :
    Acts env report s (opSendPayload env s connIndex data).2 := by
  unfold opSendPayload
  split
  · exact ReflTransGen.refl
  · exact acts_profileManagerSend env s data

theorem acts_opRequestMtu (s : App) (connIndex : Nat) : Acts env report s (opRequestMtu env s connIndex).2 := by
  unfold opRequestMtu
  split
  · exact ReflTransGen.refl
  · exact acts_profileManagerRequestMtu env s

/-- The two tables together: outside data mode the parser makes actions and stays outside. -/
theorem kept_acts (s₀ : App) : AtHost.Kept (atOps env) atTx fun s => Acts env report s₀ s ∧ s.appState ≠ .dataMode where
  startScan durationS filterName h := Acts.extend h (acts_opStartScan env h.2 durationS filterName)
  connect mac addrType h := Acts.extend h (acts_opConnect env _ mac addrType)
  disconnect connIndex h := Acts.extend h (acts_opDisconnect env h.2 connIndex)
  sendPayload connIndex data h := Acts.extend h (acts_opSendPayload env _ connIndex data)
  getStatus h := Acts.extend h (acts_opGetStatus env _)
  getProfile h := h
  setProfile service notify write h := Acts.extend h (acts_opSetProfile env _ service notify write)
  setMtu mtu h := Acts.extend h (acts_opSetMtu env _ mtu)
  getMtu h := h
  requestMtu connIndex h := Acts.extend h (acts_opRequestMtu env _ connIndex)
  setConnParams connIndex minInterval maxInterval latency timeout h :=
    Acts.extend h (acts_opSetConnParams env _ connIndex minInterval maxInterval latency timeout)
  enterDataMode connIndex text h := Acts.extend h (acts_opEnterDataMode env h.2 connIndex text)
  getStreamStats h := h
  line text h := Acts.extend h (acts_line text h.2)
  raw data h := Acts.extend h (Act.raw data h.2).acts

/-! ## Connections and scan results -/

/-- The profile manager holds the connection and knows nothing of it. -/
def App.attach (s : App) (conn : Conn) : App := { s with pm := { s.pm.cleared with conn := some conn } }

theorem kickUartTx_attach (s : App) (conn : Conn) : kickUartTx (s.attach conn) = (kickUartTx s).attach conn := by
  cases h : s.controlDtrReady with
  | false => simp [kickUartTx, h, App.attach]
  | true => simp [kickUartTx, h, App.attach]

theorem queueCtrlBytes_attach (s : App) (data : List Byte) (conn : Conn) :
    queueCtrlBytes (s.attach conn) data = (queueCtrlBytes s data).attach conn := by
  by_cases hd : data = []
  · simp [queueCtrlBytes, hd]
  · simp only [queueCtrlBytes, hd, ↓reduceIte]
    exact kickUartTx_attach
      { s with
        ctrlTxRing := (s.ctrlTxRing.put data).2
        log := .ctrlPut data (data.take s.ctrlTxRing.spaceGet) :: s.log } conn

/-- A line is queued whatever the profile manager holds. -/
theorem queueCtrlLine_attach (s : App) (line : Text) (conn : Conn) :
    queueCtrlLine (s.attach conn) line = (queueCtrlLine s line).attach conn := by
  simp only [queueCtrlLine, queueCtrlBytes_attach]
  rfl

/-- The reset asks the stack only if a connection was held. -/
theorem acts_profileManagerStart (s : App) (conn : Conn) :
    Acts env report (s.attach conn) (profileManagerStart env s conn).2 := by
  simp only [profileManagerStart]
  generalize hr : ({ updatePayloadLen _ with pm := _ } : App) = r
  have hreset : Acts env report (s.attach conn) r := by
    rw [← hr]
    simp only [profileManagerReset]
    cases s.pm.conn with
    | none => exact acts_manager ⟨rfl, rfl, rfl, rfl, rfl, rfl, fun _ => updatePayloadLen_pos _⟩
    | some old =>
        have ha : Acts env report (s.attach conn) ((s.attach conn).ask env (.gattUnsubscribe old)).2 :=
          (Act.ask (.gattUnsubscribe old) True.intro).acts
        exact ha.trans (acts_manager ⟨rfl, rfl, rfl, rfl, rfl, rfl, fun _ => updatePayloadLen_pos _⟩)
  split
  · exact (hreset.trans (acts_ask _ (by exact True.intro) _)).trans (acts_profileError _)
  · exact hreset.trans (acts_ask _ (by exact True.intro) _)

theorem acts_connected {conn : Conn} (h : s.link = .creating conn) (hc : s.currentConn = some conn)
    (hm : s.appState ≠ .dataMode) (err : Nat) : Acts env report s (connected env s conn err) := by
  simp only [connected]
  split
  · rename_i he
    have hfail : Acts env report s
        { s with link := .down, currentConn := none, appState := .idle, log := .connUnref conn :: .connected err :: s.log } :=
      (Act.connectFailed err conn h hc he).acts
    have hline := hfail.trans (acts_line AtHost.ErrorKind.functionError.text (by simp))
    simpa only [App.note, hc, setState, atHostNotifyFunctionError] using hline
  · rename_i he
    have he : err = 0 := by simpa using he
    subst he
    generalize ht : setState { s.note (.connected 0) with link := .up conn } .connecting = t
    have hopened : Acts env report s (t.attach conn) := by
      rw [← ht]
      exact (Act.opened conn h hm).acts
    have hline := hopened.trans (acts_line (ascii "+IND=BLMC,0") (hopened.mode hm))
    rw [queueCtrlLine_attach] at hline
    have hstart := hline.trans (acts_profileManagerStart env (atHostNotifyConnected t) conn)
    have hrequest : ∀ {t : App} {f : App → Int × App}, Acts env report s t → (∀ t, Acts env report t (f t).2) →
        ∀ c : Bool, Acts env report s (if c then (f t).2 else t) :=
      fun ht hf c => acts_ite (fun _ => ht.trans (hf _)) fun _ => ht
    split
    · exact hstart.trans (acts_line _ (Acts.mode hstart hm))
    · exact hrequest (hrequest (hrequest hstart (acts_profileManagerRequestMtu env) _)
        (acts_profileManagerRequestDataLen env) _) (acts_profileManagerRequestPhy env) _

theorem acts_disconnected {conn : Conn} (h : s.link = .up conn) (hc : s.currentConn = some conn)
    (hpc : s.pm.conn = some conn) (reason : Nat) (hr : report s .lost) :
    Acts env report s (disconnected env s conn reason) := by
  have hclosed : Acts env report s (closeConnection env s conn reason) := (Act.closed conn reason h hc hpc hr).acts
  have hm : (closeConnection env s conn reason).appState ≠ .dataMode := by simp [closeConnection, setState]
  exact (hclosed.trans (acts_line (ascii "+IND=BLMD,0") hm)).tail .flow

theorem acts_leParamUpdated (s : App) (conn : Conn) (interval latency timeout : Nat) :
    Acts env report s (leParamUpdated s conn interval latency timeout) := by
  unfold leParamUpdated
  split
  · exact (Act.callback .linkParams).acts.tail (.line _ (mayQueue_of_callback rfl))
  · exact ReflTransGen.refl

theorem acts_deviceFound (s : App) (addr : BtAddrLe) (rssi : Int) (type : Nat) (ad : List Byte) :
    Acts env report s (deviceFound env s addr rssi type ad) := by
  unfold deviceFound
  split; · exact ReflTransGen.refl
  rename_i hscan
  have hm : s.appState ≠ .dataMode := by
    intro he
    exact hscan (by rw [he]; simp)
  split; · exact ReflTransGen.refl
  dsimp only
  split; · exact ReflTransGen.refl
  split
  · exact (Act.cache _ s.nextScanIndex s.scanFilterName).acts
  · split
    · exact ReflTransGen.refl
    · exact (Act.cache _ _ s.scanFilterName).acts.trans (acts_line _ hm)

/-! ## Events -/

/-- The application holds the connection that the stack knows. -/
structure LinkHeld (s : App) : Prop where
  creating : ∀ {conn}, s.link = .creating conn → s.currentConn = some conn ∧ s.appState ≠ .dataMode
  up : ∀ {conn}, s.link = .up conn → s.currentConn = some conn ∧ s.pm.conn = some conn
  escape : s.escapeState.active = true → s.appState = .dataMode

theorem acts_whileUp (g : App → App) (h : ∀ conn, s.link = .up conn → Acts env report s (g s)) :
    Acts env report s (whileUp s g) := by
  unfold whileUp
  split
  · rename_i conn hl; exact h conn hl
  · exact ReflTransGen.refl

theorem acts_stepApp (hl : LinkHeld s) {e : Event} (he : ¬e.IsStream)
    (hr : ∀ r, e.report = some r → report s r) : Acts env report s (stepApp env s e) := by
  cases e with
  | uart tx rx => exact ReflTransGen.refl
  | lineState dtr => exact (Act.lineState dtr).acts
  | bleWriteWork => exact absurd trivial he
  | bleWriteRetryWork => exact absurd trivial he
  | bleWriteCoalesceWork => exact absurd trivial he
  | escapeGuardWork now => exact absurd trivial he
  | scanStopWork =>
      exact acts_ite (fun _ => acts_stopScanInternal env s none (Or.inr rfl) true) fun _ => ReflTransGen.refl
  | deviceFound addr rssi type ad => exact acts_deviceFound env s addr rssi type ad
  | connected err =>
      simp only [stepApp]
      split
      · rename_i conn h; exact acts_connected env h (hl.creating h).1 (hl.creating h).2 err
      · exact ReflTransGen.refl
  | disconnected reason =>
      simp only [stepApp]
      split
      · rename_i conn h; exact acts_disconnected env h (hl.up h).1 (hl.up h).2 reason (hr _ rfl)
      · exact ReflTransGen.refl
  | leParamUpdated interval latency timeout =>
      simp only [stepApp]
      split
      · exact acts_leParamUpdated env s _ interval latency timeout
      · exact ReflTransGen.refl
  | attMtu mtu => exact (Act.attMtu mtu).acts
  | serviceDiscover attr => simp only [stepApp]; exact acts_whileUp env _ fun _ _ => acts_serviceDiscoverCb env s attr
  | characteristicDiscover attr =>
      simp only [stepApp]; exact acts_whileUp env _ fun _ h => acts_characteristicDiscoverCb env h attr fun chrc ha => hr _ (by rw [ha]; rfl)
  | subscribe err =>
      simp only [stepApp]; exact acts_whileUp env _ fun _ h => acts_subscribeHandler h err (hr _ rfl)
  | notify data =>
      simp only [stepApp]
      exact acts_whileUp env _ fun _ h => acts_notifyHandler h data fun hd => hr (.subscription false) (by rw [hd]; rfl)
  | exchange err => simp only [stepApp]; exact acts_whileUp env _ fun _ _ => acts_exchangeHandler env s err
  | write err => simp only [stepApp]; exact acts_whileUp env _ fun _ _ => acts_writeHandler env s err

/-- The bytes that the parser takes. -/
theorem acts_atHostRxBytes (f : Firmware) (hm : f.app.appState ≠ .dataMode) (bytes : List Byte) :
    Acts env report f.app (AtHost.atHostRxBytes (atOps env) atTx f.world bytes).ctx :=
  ((kept_acts env f.app).atHostRxBytes (w := f.world) bytes ⟨ReflTransGen.refl, hm⟩).1

end

end BleAtHost.Main
