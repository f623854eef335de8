import BleAtHost.Main.Lemmas.Stages

/-!
# Every reachable state is alive

The commands, the scan, the callbacks of the connection and the streams, again one lemma for each function.
-/

namespace BleAtHost.Main

open Relation

variable {s s' : App} {env : Env}

/-! ## The settings -/

theorem Alive.settingsSaveOne (h : Alive s) (key : SettingsKey) (value : List Byte) :
    Alive (settingsSaveOne env s key value).2 := by
  have hask : Alive (s.ask env (.settingsSave key value)).2 := h.ask (by cases s.stage <;> rfl)
  simp only [Main.settingsSaveOne]
  split
  · exact hask.of_outline rfl
  · exact hask

theorem Alive.settingsSaveAll (h : Alive s) (items : List (SettingsKey × List Byte)) :
    Alive (settingsSaveAll env s items).2 := by
  induction items generalizing s with
  | nil => exact h
  | cons item rest ih =>
      obtain ⟨key, value⟩ := item
      have hone : Alive (Main.settingsSaveOne env s key value).2 := h.settingsSaveOne key value
      simp only [Main.settingsSaveAll]
      split
      · exact hone
      · exact ih hone

theorem Alive.opSetProfile (h : Alive s) (service notify write : Text) : Alive (opSetProfile env s service notify write).2 := by
  have hupdate : Alive (bleHostSettingsUpdateProfile env s service notify write).2 := by
    unfold bleHostSettingsUpdateProfile
    split
    · dsimp only
      apply Alive.settingsSaveAll
      exact (h.of_outline (outline_note (o := .profile s.config.activeProfile _ s.pm.writeFound) rfl s)).of_outline rfl
    · exact h
  simp only [Main.opSetProfile]
  split
  · exact hupdate
  · exact hupdate.updatePayloadLen

theorem Alive.opSetMtu (h : Alive s) (mtu : Nat) : Alive (opSetMtu env s mtu).2 := by
  have hset : Alive { s with config := { s.config with mtu := mtu } } := h.of_outline rfl
  have hupdate : Alive (bleHostSettingsUpdateMtu env s mtu).2 := by
    unfold bleHostSettingsUpdateMtu
    split
    · exact h
    · exact hset.settingsSaveAll _
  simp only [Main.opSetMtu]
  split
  · exact hupdate
  · exact hupdate.updatePayloadLen

theorem Alive.opSetConnParams (h : Alive s) (connIndex minInterval maxInterval latency timeout : Nat) :
    Alive (opSetConnParams env s connIndex minInterval maxInterval latency timeout).2 := by
  unfold Main.opSetConnParams
  split; · exact h
  split; · exact h
  rename_i conn hc
  have hask : Alive (s.ask env (.connParamUpdate conn minInterval maxInterval latency timeout)).2 := by
    apply h.ask
    rcases h.wired.of_current hc with hl | hl
    · rw [stage_creating hl]
      exact if_pos rfl
    · rw [stage_up hl]
      exact if_pos rfl
  have hconfig : ∀ t : App, Alive t → Alive
      { t with
        config :=
          { t.config with
            connIntervalMin := minInterval
            connIntervalMax := maxInterval
            latency := latency
            timeout := timeout } } :=
    fun t ht => ht.of_outline rfl
  dsimp only
  split
  · exact hask
  · unfold bleHostSettingsUpdateConnParams
    split
    · exact hask
    · exact (hconfig _ hask).settingsSaveAll _

/-! ## Scanning -/

theorem Wired.scanning (h : Wired s) (hm : s.appState = .scanning) : s.link = .down ∧ s.stage = .scanning := by
  have hl : s.link = .down := h.down.mpr (.inr hm)
  refine ⟨hl, ?_⟩
  rw [App.stage, hl]
  exact if_pos hm

theorem Wired.idle (h : Wired s) (hm : s.appState = .idle) : s.link = .down ∧ s.stage = .idle := by
  have hl : s.link = .down := h.down.mpr (.inl hm)
  refine ⟨hl, ?_⟩
  rw [App.stage, hl]
  exact if_neg (by simp [hm])

/-- Nothing is held while the link is down. -/
theorem Wired.of_down (h : Wired s) (hl : s.link = .down) :
    s.currentConn = none ∧ s.pm.conn = none ∧ s.pm.ready = false ∧ s.dataModePendingEnter = false := by
  have hpc : s.pm.conn = none := by
    have hmanager := h.manager
    rw [hl] at hmanager
    exact hmanager
  refine ⟨?_, hpc, ?_, ?_⟩
  · rw [h.current, App.stage, hl]
    dsimp only
    split
    · rfl
    · rfl
  · by_contra hr
    exact h.ready (by simpa using hr) hpc
  · by_contra hp
    obtain ⟨conn, hup⟩ := h.mode (.inr (by simpa using hp))
    rw [hl] at hup
    cases hup

/-- Without a connection the application is idle if it is not scanning. -/
theorem Wired.mode_of_free (h : Wired s) (hc : s.currentConn = none) (hm : s.appState ≠ .scanning) : s.appState = .idle := by
  have hl : s.link = .down := by
    have hcur := h.current
    rw [hc, App.stage] at hcur
    split at hcur
    · rename_i hl
      exact hl
    · cases hcur
    · cases hcur
  exact (h.down.mp hl).resolve_right hm

/-- The variables once the link is down. -/
theorem Wired.of_idle (hl : s.link = .down) (hm : s.appState = .idle) (hc : s.currentConn = none) (hpc : s.pm.conn = none)
    (hr : s.pm.ready = false) (hp : s.dataModePendingEnter = false) : Wired s := by
  have hstage : s.stage = .idle := by
    rw [App.stage, hl]
    exact if_neg (by simp [hm])
  constructor
  · rw [hc, hstage]; rfl
  · rw [hpc, hl]
  · simp [hr]
  · simp [hm, hp]
  · simp [hl, hm]

/-- The radio has stopped, or was never started, and the end of a scan is not announced. -/
structure Halted (s : App) : Prop where
  wired : Wired s
  mode : s.appState = .idle
  stage : stageOf s.log = some .idle ∨ stageOf s.log = some .stopped

theorem Alive.scanStopRefused (h : Alive s) (hm : s.appState = .scanning)
    (hr : ¬(env.answer s.calls = 0 ∨ env.answer s.calls = -EALREADY)) :
    Alive ({ s with scanStopWork := none }.ask env .scanStop).2 := by
  have hstage : s.stage = .scanning := (h.wired.scanning hm).2
  have hcall : stageOf ({ s with scanStopWork := none }.ask env .scanStop).2.log = some .scanning := by
    refine (stageOf_cons h.stage).trans ?_
    rw [hstage]
    exact congrArg some (if_neg hr)
  exact ⟨h.wired.of_wiring rfl, hcall.trans (congrArg some hstage.symm)⟩

theorem Alive.scanStopped (h : Alive s) (hm : s.appState = .scanning)
    (hr : env.answer s.calls = 0 ∨ env.answer s.calls = -EALREADY) :
    Halted (Main.setState ({ s with scanStopWork := none }.ask env .scanStop).2 s.restState) ∧
      stageOf (Main.setState ({ s with scanStopWork := none }.ask env .scanStop).2 s.restState).log = some .stopped := by
  obtain ⟨hl, hstage⟩ := h.wired.scanning hm
  obtain ⟨hc, hpc, hready, hp⟩ := h.wired.of_down hl
  have hrest : s.restState = .idle := by simp [App.restState, hc]
  have hcall : stageOf ({ s with scanStopWork := none }.ask env .scanStop).2.log = some .stopped := by
    refine (stageOf_cons h.stage).trans ?_
    rw [hstage]
    exact congrArg some (if_pos hr)
  exact ⟨⟨.of_idle hl hrest hc hpc hready hp, hrest, .inr hcall⟩, hcall⟩

/-- A line after which the monitor stands where the variables stand. -/
theorem Wired.line (h : Wired s) {line : Text} {sp : Speech} {stage : Stage} (hl : speech line = some sp)
    (hs : stageOf s.log = some stage) (hspeak : stage.speak sp = some s.stage) : Alive (queueCtrlLine s line) where
  wired := h.of_wiring (wiring_queueCtrlLine s line)
  stage := by
    rw [stageOf_queueCtrlLine hl hs, hspeak, stage_of_wiring (wiring_queueCtrlLine s line)]

theorem Alive.stopScanInternal (h : Alive s) (emitComplete : Bool) :
    (stopScanInternal env s emitComplete).1 = 0 ∧ emitComplete = false ∧ s.appState = .scanning ∧
        Halted (stopScanInternal env s emitComplete).2 ∨
      Alive (stopScanInternal env s emitComplete).2 ∧
        ((stopScanInternal env s emitComplete).1 = 0 → emitComplete = true ∨ s.appState ≠ .scanning) := by
  unfold Main.stopScanInternal
  split
  · rename_i hm
    exact .inr ⟨h, fun _ => .inr hm⟩
  rename_i hm
  have hm : s.appState = .scanning := not_not.mp hm
  dsimp only
  split
  · rename_i hr
    exact .inr ⟨h.scanStopRefused hm (by tauto), fun h0 => absurd h0 hr.1⟩
  · rename_i hr
    obtain ⟨hhalted, hstopped⟩ := @Alive.scanStopped s env h hm (by tauto)
    cases emitComplete with
    | false => exact .inl ⟨rfl, rfl, hm, hhalted⟩
    | true =>
        have hsaid : speech (ascii "+IND=SCED") = some .scanComplete := by decide
        refine .inr ⟨hhalted.wired.line hsaid hstopped ?_, fun _ => .inl rfl⟩
        rw [(hhalted.wired.idle hhalted.mode).2]
        rfl

theorem Alive.deviceFound (h : Alive s) (addr : BtAddrLe) (rssi : Int) (type : Nat) (ad : List Byte) :
    Alive (deviceFound env s addr rssi type ad) := by
  have hcached : ∀ devices next, Alive { s with scannedDevices := devices, nextScanIndex := next } :=
    fun _ _ => h.of_outline rfl
  unfold Main.deviceFound
  split; · exact h
  rename_i hm
  split; · exact h
  dsimp only
  split; · exact h
  split
  · exact hcached _ _
  split; · exact h
  simp only [atHostNotifyScanResult, List.append_assoc]
  have hstage : ∀ devices next, App.stage { s with scannedDevices := devices, nextScanIndex := next } = .scanning :=
    fun _ _ => (h.wired.scanning (not_not.mp hm)).2
  refine (hcached _ _).line (speech_snprintk _ .scanResult (by decide) (by decide) (by decide) _) ?_
  rw [hstage]
  rfl

/-! ## The operations of the commands -/

theorem Alive.scanStart (h : Alive s) (hm : s.appState = .idle) :
    (env.answer s.calls ≠ 0 → Alive (s.ask env .scanStart).2) ∧
      (env.answer s.calls = 0 → ∀ work, Alive { Main.setState (s.ask env .scanStart).2 .scanning with scanStopWork := work }) := by
  obtain ⟨hl, hstage⟩ := h.wired.idle hm
  obtain ⟨hc, hpc, hready, hp⟩ := h.wired.of_down hl
  have hcall : stageOf (s.ask env .scanStart).2.log = some (if env.answer s.calls = 0 then .scanning else .idle) := by
    refine (stageOf_cons h.stage).trans ?_
    rw [hstage]
    rfl
  constructor
  · intro hr
    rw [if_neg hr] at hcall
    exact ⟨h.wired.of_wiring rfl, hcall.trans (congrArg some hstage.symm)⟩
  · intro hr work
    rw [if_pos hr] at hcall
    have hscanning : App.stage { Main.setState (s.ask env .scanStart).2 .scanning with scanStopWork := work } = .scanning := by
      have hdown : App.link { Main.setState (s.ask env .scanStart).2 .scanning with scanStopWork := work } = .down := hl
      unfold App.stage
      rw [hdown]
      rfl
    refine ⟨⟨hc.trans (by rw [hscanning]; rfl), ?_, ?_, ?_, ?_⟩, hcall.trans (congrArg some hscanning.symm)⟩
    · exact h.wired.manager
    · exact h.wired.ready
    · rintro (hd | hpending)
      · cases hd
      · exact h.wired.mode (.inr hpending)
    · exact ⟨fun _ => .inr rfl, fun _ => hl⟩

theorem Alive.opStartScan (h : Alive s) (durationS : Nat) (filterName : Option Text) :
    Alive (opStartScan env s durationS filterName).2 := by
  unfold Main.opStartScan
  split; · exact h
  rename_i hc
  split; · exact h
  split; · exact h
  rename_i hm
  have hidle : s.appState = .idle := h.wired.mode_of_free (by simpa using hc) hm
  have hcleared : ∀ filter, Alive { clearScanCache s with scanFilterName := filter } := fun _ => h.of_outline rfl
  obtain ⟨hrefused, hstarted⟩ := @Alive.scanStart _ env (hcleared (snprintk BLE_HOST_SCAN_FILTER_MAX_LEN (filterName.getD []))) hidle
  dsimp only
  split
  · rename_i hr
    exact hrefused hr
  · rename_i hr
    exact hstarted (not_not.mp hr) _

/-- `bt_conn_le_create` is called while the radio is stopped. -/
theorem Halted.createConnection (h : Halted s) (peer : BtAddrLe) : Alive (createConnection env s peer).2 := by
  obtain ⟨hl, hstage⟩ := h.wired.idle h.mode
  obtain ⟨hc, hpc, hready, hp⟩ := h.wired.of_down hl
  obtain ⟨minInterval, maxInterval, latency, timeout, result, hlog, hcases⟩ := createConnection_cases env s peer
  have hcall : stageOf (Main.createConnection env s peer).2.log =
      some (if result = 0 then .creating ⟨s.conns, peer⟩ else .idle) := by
    rw [hlog]
    rcases h.stage with hs | hs
    · exact stageOf_cons hs
    · exact stageOf_cons hs
  rcases hcases with ⟨hr, ha⟩ | ⟨hr, ha⟩
  · rw [if_neg hr] at hcall
    have hwired : Wired (Main.createConnection env s peer).2 :=
      .of_idle (ha.link.trans hl) (ha.appState.trans h.mode) ha.currentConn ((congrArg _ ha.pm).trans hpc)
        ((congrArg _ ha.pm).trans hready) (ha.dataModePendingEnter.trans hp)
    exact ⟨hwired, by rw [hcall, (hwired.idle (ha.appState.trans h.mode)).2]⟩
  · rw [if_pos hr] at hcall
    have hcreating : (Main.createConnection env s peer).2.stage = .creating ⟨s.conns, peer⟩ := stage_creating ha.link
    refine ⟨⟨?_, ?_, ?_, ?_, ?_⟩, hcall.trans (congrArg some hcreating.symm)⟩
    · rw [ha.currentConn, hcreating]; rfl
    · rw [ha.pm, hpc, ha.link]
    · rw [ha.pm, hready]; simp
    · rw [ha.appState, ha.dataModePendingEnter, hp]; simp
    · rw [ha.link, ha.appState]; simp

theorem Alive.opConnect (h : Alive s) (mac : Text) (addrType : Nat) : Alive (opConnect env s mac addrType).2 := by
  unfold Main.opConnect
  split; · exact h
  rename_i hc
  split; · exact h
  split; · exact h
  split; · exact h
  split
  · rename_i hm
    have hstop := @Alive.stopScanInternal s env h false
    dsimp only
    split
    · rename_i hr
      rcases hstop with ⟨h0, _⟩ | ⟨halive, _⟩
      · exact absurd h0 hr
      · exact halive
    · rename_i hr
      rcases hstop with ⟨_, _, _, hhalted⟩ | ⟨_, h0⟩
      · exact hhalted.createConnection _
      · rcases h0 (not_not.mp hr) with hf | hn
        · cases hf
        · exact absurd hm hn
  · rename_i hm
    have hidle : s.appState = .idle := h.wired.mode_of_free (by simpa using hc) hm
    exact Halted.createConnection ⟨h.wired, hidle, .inl (by rw [h.stage, (h.wired.idle hidle).2])⟩ _

theorem Alive.opDisconnect (h : Alive s) (hm : s.appState ≠ .dataMode) (connIndex : Nat) :
    Alive (opDisconnect env s connIndex).2 := by
  unfold Main.opDisconnect
  split; · exact h
  split; · exact h
  rename_i conn hc
  have hset : Alive (Main.setState s .disconnecting) := h.setState (by simp [hc]) hm (.inr rfl)
  apply hset.ask
  rcases h.wired.of_current hc with hl | hl
  · rw [stage_creating (s := Main.setState s .disconnecting) hl]
    exact if_pos rfl
  · rw [stage_up (s := Main.setState s .disconnecting) hl]
    exact if_pos rfl

theorem Alive.opEnterDataMode (h : Alive s) (hm : s.appState ≠ .dataMode) (connIndex : Nat) :
    Alive (opEnterDataMode s connIndex).2 := by
  unfold Main.opEnterDataMode
  split; · exact h
  split; · exact h
  split; · exact h
  rename_i hp
  split; · exact h
  rename_i he
  have hp : s.dataModePendingEnter = false := by
    by_contra hpending
    exact hp (.inr (by simpa using hpending))
  have hready : s.pm.ready = true := by
    have he : profileManagerCanEnterDataMode s.pm = true := by simpa using he
    simp only [profileManagerCanEnterDataMode, Bool.and_eq_true] at he
    exact he.1.1.1
  obtain ⟨conn, hconn⟩ := Option.ne_none_iff_exists'.mp (h.wired.ready hready)
  have hl : s.link = .up conn := h.wired.of_manager hconn
  have hstage : s.stage = .up conn .control := by rw [stage_up hl, App.use, if_neg hm, hp]; rfl
  have hrequested : App.stage { s with dataModePendingEnter := true, log := .enterAccepted :: s.log } = .up conn .requested := by
    rw [stage_up (s := { s with dataModePendingEnter := true, log := .enterAccepted :: s.log }) hl, App.use, if_neg hm]
    rfl
  refine ⟨⟨?_, h.wired.manager, h.wired.ready, fun _ => ⟨conn, hl⟩, h.wired.down⟩, ?_⟩
  · rw [hrequested, h.wired.current, hstage]; rfl
  · rw [hrequested]
    refine (stageOf_cons h.stage).trans ?_
    rw [hstage]
    rfl

theorem opEnterDataMode_mode (s : App) (connIndex : Nat) : (opEnterDataMode s connIndex).2.appState = s.appState := by
  unfold opEnterDataMode
  repeat' split
  all_goals rfl

/-! ## The callbacks of the connection -/

/-- The variables when the connection is announced. -/
theorem alive_of_opened {conn : Conn} (hl : s.link = .up conn) (hc : s.currentConn = some conn) (hpc : s.pm.conn = some conn)
    (hm : s.appState = .connecting) (hp : s.dataModePendingEnter = false) (hs : stageOf s.log = some (.up conn .control)) :
    Alive s := by
  have hstage : s.stage = .up conn .control := by rw [stage_up hl, App.use, if_neg (by simp [hm]), hp]; rfl
  refine ⟨⟨?_, ?_, ?_, fun _ => ⟨conn, hl⟩, ?_⟩, hs.trans (congrArg some hstage.symm)⟩
  · rw [hc, hstage]; rfl
  · rw [hpc, hl]
  · simp [hpc]
  · simp [hl, hm]

/-- The profile manager starts on a connection that is announced. -/
theorem alive_profileManagerStart {conn : Conn} (hpc : s.pm.conn = none)
    (h : ∀ pm : ProfileManagerState, pm.conn = some conn → Alive { s with pm := pm }) (hl : s.link = .up conn) :
    Alive (profileManagerStart env s conn).2 := by
  have hask : ∀ pm : ProfileManagerState, pm.conn = some conn → ∀ startHandle endHandle type,
      Alive (App.ask env { s with pm := pm } (.gattDiscover (some conn) startHandle endHandle type)).2 :=
    fun pm hconn _ _ _ => (h pm hconn).askUp hl rfl (by simp)
  simp only [profileManagerStart, profileManagerReset, hpc]
  split
  · exact Alive.profileError (hask _ rfl _ _ _)
  · exact hask _ rfl _ _ _

theorem Alive.connected (h : Alive s) {conn : Conn} (hl : s.link = .creating conn) (err : Nat) :
    Alive (connected env s conn err) := by
  have hstage : s.stage = .creating conn := stage_creating hl
  have hc : s.currentConn = some conn := by rw [h.wired.current, hstage]; rfl
  have hpc : s.pm.conn = none := by rw [h.wired.manager, hl]
  have hready : s.pm.ready = false := by
    by_contra hr
    exact h.wired.ready (by simpa using hr) hpc
  have hcreating : ¬∃ conn, s.link = .up conn := by rw [hl]; simp
  have hp : s.dataModePendingEnter = false := by
    by_contra hpending
    exact hcreating (h.wired.mode (.inr (by simpa using hpending)))
  simp only [Main.connected]
  split
  · rename_i he
    simp only [App.note, hc]
    refine Alive.functionError ⟨.of_idle rfl rfl rfl hpc hready hp, ?_⟩
    have hfailed : stageOf (.connected err :: s.log) = some (.failed conn) := by
      refine (stageOf_cons h.stage).trans ?_
      rw [hstage]
      exact congrArg some (if_neg he)
    exact (stageOf_cons hfailed).trans (if_pos rfl)
  · rename_i he
    have he : err = 0 := not_not.mp he
    generalize ht : Main.setState { s.note (.connected err) with link := .up conn } .connecting = t
    have hopened : stageOf t.log = some (.opened conn) := by
      rw [← ht]
      refine (stageOf_cons h.stage).trans ?_
      rw [hstage]
      exact congrArg some (if_pos he)
    have hsaid : speech (ascii "+IND=BLMC,0") = some .connected := by decide
    have hannounced : stageOf (atHostNotifyConnected t).log = some (.up conn .control) := stageOf_queueCtrlLine hsaid hopened
    have hwiring : (atHostNotifyConnected t).wiring = ⟨some conn, none, false, false, .connecting, .up conn⟩ := by
      refine (wiring_queueCtrlLine t _).trans ?_
      subst ht
      simp only [App.wiring, App.note, Main.setState, hc, hpc, hready, hp]
    have hlink : (atHostNotifyConnected t).link = .up conn := congrArg Wiring.link hwiring
    have hstart : Alive (profileManagerStart env (atHostNotifyConnected t) conn).2 :=
      alive_profileManagerStart (congrArg Wiring.manager hwiring)
        (fun pm hconn => alive_of_opened hlink (congrArg Wiring.currentConn hwiring) hconn (congrArg Wiring.mode hwiring)
          (congrArg Wiring.pending hwiring) hannounced)
        hlink
    have hrequest : ∀ {t : App} {f : App → Int × App}, Alive t → (∀ t, Alive t → Alive (f t).2) →
        ∀ c : Bool, Alive (if c then (f t).2 else t) := by
      intro t f ht hf c
      split
      · exact hf t ht
      · exact ht
    split
    · exact hstart.functionError
    · exact hrequest (hrequest (hrequest hstart (fun _ ht => ht.profileManagerRequestMtu) _)
        (fun _ ht => ht.profileManagerRequestDataLen) _) (fun _ ht => ht.profileManagerRequestPhy) _

theorem Alive.disconnected (h : Alive s) {conn : Conn} (hl : s.link = .up conn) (reason : Nat) :
    Alive (disconnected env s conn reason) := by
  obtain ⟨hc, hpc⟩ := h.wired.connected hl
  have hclosed : ClosedFrom s (closeConnection env s conn reason) conn := closedFrom hc hpc reason
  obtain ⟨paused, reason', result, hlog⟩ := hclosed.log
  have hwired : Wired (closeConnection env s conn reason) :=
    .of_idle hclosed.link hclosed.appState hclosed.currentConn hclosed.pmConn hclosed.ready hclosed.dataModePendingEnter
  have hending : stageOf (.stack (.gattUnsubscribe conn) result :: s.log) = some (.ending conn) := by
    refine (stageOf_cons h.stage).trans ?_
    rw [stage_up hl]
    exact if_pos rfl
  have hreleased : stageOf (.connUnref conn :: .stack (.gattUnsubscribe conn) result :: s.log) = some .released :=
    (stageOf_cons hending).trans (if_pos rfl)
  have hstage : stageOf (closeConnection env s conn reason).log = some .closed := by
    rw [hlog]
    exact (@stageOf_quiet [.clear paused, .h2bReset] (by simp [Obs.isWatched]) _).trans (stageOf_cons hreleased)
  have hsaid : speech (ascii "+IND=BLMD,0") = some .disconnected := by decide
  have hline : Alive (atHostNotifyDisconnected (closeConnection env s conn reason)) := by
    refine hwired.line hsaid hstage ?_
    rw [(hwired.idle hclosed.appState).2]
    rfl
  exact hline.of_outline (outline_refresh _)

theorem Alive.leParamUpdated (h : Alive s) {conn : Conn} (hl : s.link = .up conn) (interval latency timeout : Nat) :
    Alive (leParamUpdated s conn interval latency timeout) := by
  unfold Main.leParamUpdated
  split
  · have hnote : Alive (s.note (.callback .linkParams)) := h.of_outline (outline_note rfl s)
    simp only [atHostNotifyLinkParams, List.append_assoc]
    refine hnote.line (speech_snprintk _ .linkParams (by decide) (by decide) (by decide) _) ?_
    rw [stage_up (s := s.note (.callback .linkParams)) hl]
    rfl
  · exact h

/-! ## The streams -/

theorem Alive.streamed (h : Alive s) (hs : Streamed s s') : Alive s' := by
  obtain ⟨_, _, _, _, _, _, _, _, _, _, _, new, hnew, rfl⟩ := hs
  have hquiet : ∀ o ∈ new, o.isWatched = false := by
    intro o ho
    have hstreamed := hnew o ho
    cases o with
    | stack | ctrlLine | connected | connUnref | disconnected | enterAccepted | enter | exit | notify | b2hPut =>
        exact absurd hstreamed id
    | _ => rfl
  exact h.of_outline (Prod.ext rfl (stageOf_quiet hquiet s.log))

theorem Alive.bleWriteLoop (h : Alive s) (passes : Nat) : Alive (bleWriteLoop env passes s) := by
  induction passes generalizing s with
  | zero => exact h
  | succ passes ih =>
      have hclaim : Alive { s with hostToBleRing := (s.hostToBleRing.getClaim s.pm.payloadLen).2 } := h.of_outline rfl
      have hsent : Alive (sendChunk env s).2 := by
        simp only [sendChunk]
        exact (hclaim.profileManagerSend s.nextChunk).of_outline (outline_note rfl _)
      unfold Main.bleWriteLoop
      split; · exact h
      split; · exact h.of_outline rfl
      split; · exact h.of_outline rfl
      split; · exact hclaim
      rcases hr : sendChunk env s with ⟨err, t⟩
      rw [hr] at hsent
      dsimp only at hsent ⊢
      split
      · exact ih (hsent.streamed (streamed_finishChunk t _))
      · split
        · exact hsent.of_outline rfl
        · exact hsent

/-- Data mode is left, which is announced at once. -/
theorem Alive.exitDataMode (h : Alive s) (hm : s.appState = .dataMode) (now : Int) :
    Alive (exitDataMode (s.note (.exit now s.hostToBleRing.data))) := by
  obtain ⟨conn, hl⟩ := h.wired.mode (.inl hm)
  obtain ⟨hc, hpc⟩ := h.wired.connected hl
  have hstage : s.stage = .up conn .data := stage_data hl hm
  generalize ht : clearDataModeSession (s.note (.exit now s.hostToBleRing.data)) true = t
  have hmode : t.appState = .controlReady := by
    rw [← ht]
    simp [clearDataModeSession, App.note, App.restState, hc]
  have hlink : t.link = .up conn := by rw [← ht]; exact hl
  have hleft : stageOf t.log = some (.left conn) := by
    rw [← ht]
    refine (@stageOf_quiet [.clear _] (by simp [Obs.isWatched]) _).trans ((stageOf_cons h.stage).trans ?_)
    rw [hstage]
    rfl
  have hnow : t.stage = .up conn .control := by
    rw [stage_up hlink, App.use, if_neg (by simp [hmode]), ← ht]
    rfl
  have hwired : Wired t := by
    refine ⟨?_, ?_, ?_, fun _ => ⟨conn, hlink⟩, by simp [hlink, hmode]⟩
    · rw [hnow, ← ht]; exact hc
    · rw [hlink, ← ht]; exact hpc
    · rw [← ht]; exact h.wired.ready
  have hsaid : speech (dataModeLine false) = some .dataModeLeft := by decide
  have hline : Alive (atHostNotifyDataMode t false) := hwired.line hsaid hleft (by rw [hnow]; rfl)
  change Alive (refreshUartRxFlowControl (kickUartTx (atHostNotifyDataMode
    (clearDataModeSession (s.note (.exit now s.hostToBleRing.data)) true) false)))
  rw [ht]
  exact hline.of_outline ((outline_refresh _).trans (outline_kickUartTx _))

theorem Alive.escapeGuardWorkHandler (h : Alive s) (he : s.escapeState.active = true → s.appState = .dataMode) (now : Int) :
    Alive (escapeGuardWorkHandler s now) := by
  have hread : Alive (s.note (.uptime now)) := h.of_outline (outline_note rfl s)
  unfold Main.escapeGuardWorkHandler
  dsimp only
  split
  · exact h
  rename_i ha
  split
  · split
    · have hwait : Alive ((s.note (.uptime now)).note (.guard now)) := hread.of_outline (outline_note rfl _)
      exact hwait.of_outline rfl
    · exact hread.exitDataMode (he (by simpa using ha)) now
  · exact (h.streamed (streamed_flush s now)).of_outline (outline_note rfl _)

/-- The transmit service enters data mode only if that was requested. -/
theorem Alive.serve (h : Alive s) (hs : Serve s s') : Alive s' := by
  cases hs with
  | entered now hp hm hc hz =>
      obtain ⟨conn, hl⟩ := h.wired.mode (.inr hp)
      have hstage : s.stage = .up conn .requested := by rw [stage_up hl, App.use, if_neg hm, hp]; rfl
      have hdata : (enterDataModeNow s now).stage = .up conn .data := stage_data (s := enterDataModeNow s now) hl rfl
      have hread : stageOf (.uptime now :: s.log) = some (.up conn .requested) := by
        rw [← hstage, ← h.stage]
        exact @stageOf_quiet [.uptime now] (by simp [Obs.isWatched]) s.log
      refine ⟨⟨?_, h.wired.manager, h.wired.ready, fun _ => ⟨conn, hl⟩, ?_⟩, (stageOf_cons hread).trans (congrArg some hdata.symm)⟩
      · rw [hdata]
        exact h.wired.current.trans (by rw [hstage]; rfl)
      · simp [enterDataModeNow, hl]
  | flow => exact h.of_outline (outline_refresh s)
  | drained ctrl toHost irq fromCtrl sent =>
      have hfill : Alive (s.note (.fill fromCtrl sent)) := h.of_outline (outline_note rfl s)
      exact hfill.of_outline rfl
  | stopped => exact h.of_outline rfl

/-! ## Steps -/

section
variable (env)

/-- The commands are read outside data mode and do not enter it. -/
theorem kept_alive (s₀ : App) : AtHost.KeptByAnswers (atOps env) atTx
    fun s => (Acts env anyReport s₀ s ∧ s.appState ≠ .dataMode) ∧ Alive s where
  startScan durationS filterName h := ⟨(kept_acts env s₀).startScan durationS filterName h.1, h.2.opStartScan durationS filterName⟩
  connect mac addrType h := ⟨(kept_acts env s₀).connect mac addrType h.1, h.2.opConnect mac addrType⟩
  disconnect connIndex h := ⟨(kept_acts env s₀).disconnect connIndex h.1, h.2.opDisconnect h.1.2 connIndex⟩
  sendPayload connIndex data h := by
    refine ⟨(kept_acts env s₀).sendPayload connIndex data h.1, ?_⟩
    change Alive (opSendPayload env _ connIndex data).2
    unfold opSendPayload
    split
    · exact h.2
    · exact h.2.profileManagerSend data
  getStatus h := by
    refine ⟨(kept_acts env s₀).getStatus h.1, ?_⟩
    change Alive (opGetStatus env _).2
    unfold opGetStatus
    split
    · exact h.2
    · exact h.2
  getProfile h := h
  setProfile service notify write h :=
    ⟨(kept_acts env s₀).setProfile service notify write h.1, h.2.opSetProfile service notify write⟩
  setMtu mtu h := ⟨(kept_acts env s₀).setMtu mtu h.1, h.2.opSetMtu mtu⟩
  getMtu h := h
  requestMtu connIndex h := by
    refine ⟨(kept_acts env s₀).requestMtu connIndex h.1, ?_⟩
    change Alive (opRequestMtu env _ connIndex).2
    unfold opRequestMtu
    split
    · exact h.2
    · exact h.2.profileManagerRequestMtu
  setConnParams connIndex minInterval maxInterval latency timeout h :=
    ⟨(kept_acts env s₀).setConnParams connIndex minInterval maxInterval latency timeout h.1,
      h.2.opSetConnParams connIndex minInterval maxInterval latency timeout⟩
  enterDataMode connIndex text htext h := by
    refine ⟨(kept_acts env s₀).enterDataMode connIndex text h.1, ?_⟩
    exact (h.2.opEnterDataMode h.1.2 connIndex).answer (ne_of_eq_of_ne (opEnterDataMode_mode _ connIndex) h.1.2) htext
  getStreamStats h := h
  line text htext h := ⟨(kept_acts env s₀).line text h.1, h.2.answer h.1.2 htext⟩
  raw data h := ⟨(kept_acts env s₀).raw data h.1, h.2.of_outline (outline_queueCtrlBytes _ data)⟩

theorem alive_controlUartIsr {f : Firmware} (h : Alive f.app) (tx : Option (Int × Int)) (rx : Option (List RxByte)) :
    Alive (controlUartIsr env f tx rx).app := by
  have htx : Alive (controlUartIsrTx f tx).app := by
    unfold controlUartIsrTx
    split
    · split
      · exact Runs.invariant (P := Alive) (fun hab ha => ha.serve hab) (serves_serviceUartTx f.app _ _) h
      · exact h
    · exact h
  simp only [controlUartIsr]
  generalize controlUartIsrTx f tx = g at htx ⊢
  split
  · split
    · simp only [controlUartIsrRx]
      split; · exact htx.of_outline rfl
      split; · exact htx
      split
      · have hrx : ∀ (bytes : List Byte) (data : List RxByte),
            Alive (handleDataModeRx (g.app.note (.dataRx bytes g.app.hostToBleRing.spaceGet g.app.escapeState.held)) data) :=
          fun bytes data => Alive.streamed (htx.of_outline (outline_note rfl g.app)) (streamed_handleDataModeRx _ data)
        exact hrx _ _
      · rename_i hm
        have hnote : ∀ bytes, Alive (g.app.note (.atRx bytes)) := fun bytes => htx.of_outline (outline_note rfl g.app)
        have hkept : ∀ bytes : List Byte,
            Alive (AtHost.atHostRxBytes (atOps env) atTx ⟨g.host, g.app.note (.atRx bytes), g.trace⟩ bytes).ctx :=
          fun bytes => ((kept_alive env (g.app.note (.atRx bytes))).atHostRxBytes
            (w := ⟨g.host, g.app.note (.atRx bytes), g.trace⟩) bytes ⟨⟨ReflTransGen.refl, hm⟩, hnote bytes⟩).2
        exact hkept _
    · exact htx
  · exact htx

theorem alive_whileUp (h : Alive s) (g : App → App) (hg : ∀ conn, s.link = .up conn → Alive (g s)) : Alive (whileUp s g) := by
  unfold whileUp
  split
  · rename_i conn hl
    exact hg conn hl
  · exact h

theorem alive_step {f : Firmware} (h : Alive f.app) (he : f.app.escapeState.active = true → f.app.appState = .dataMode)
    (e : Event) : Alive (step env f e).app := by
  cases e with
  | uart tx rx => exact alive_controlUartIsr env h tx rx
  | lineState dtr => exact h.of_outline (outline_usbMessageCb f.app dtr)
  | bleWriteWork =>
      simp only [step, stepApp]
      split
      · have hrun : Alive { f.app with bleWriteWork := false } := h.of_outline rfl
        exact hrun.bleWriteLoop _
      · exact h
  | bleWriteRetryWork => exact h.of_outline (outline_ite rfl rfl)
  | bleWriteCoalesceWork => exact h.of_outline (outline_ite rfl rfl)
  | escapeGuardWork now =>
      simp only [step, stepApp]
      split
      · have hrun : Alive { f.app with escapeGuardWork := none } := h.of_outline rfl
        exact hrun.escapeGuardWorkHandler he now
      · exact h
  | scanStopWork =>
      simp only [step, stepApp]
      split
      · have hrun : Alive { f.app with scanStopWork := none } := h.of_outline rfl
        rcases @Alive.stopScanInternal _ env hrun true with ⟨_, hf, _⟩ | ⟨halive, _⟩
        · cases hf
        · exact halive
      · exact h
  | deviceFound addr rssi type ad => exact h.deviceFound addr rssi type ad
  | connected err =>
      simp only [step, stepApp]
      split
      · rename_i conn hl
        exact h.connected hl err
      · exact h
  | disconnected reason =>
      simp only [step, stepApp]
      split
      · rename_i conn hl
        exact h.disconnected hl reason
      · exact h
  | leParamUpdated interval latency timeout =>
      simp only [step, stepApp]
      split
      · rename_i conn hl
        exact h.leParamUpdated hl interval latency timeout
      · exact h
  | attMtu mtu => exact h.of_outline rfl
  | serviceDiscover attr => simp only [step, stepApp]; exact alive_whileUp h _ fun _ hl => h.serviceDiscoverCb hl attr
  | characteristicDiscover attr => simp only [step, stepApp]; exact alive_whileUp h _ fun _ hl => h.characteristicDiscoverCb hl attr
  | subscribe err => simp only [step, stepApp]; exact alive_whileUp h _ fun _ hl => h.subscribeHandler hl err
  | notify data => simp only [step, stepApp]; exact alive_whileUp h _ fun _ hl => h.notifyHandler hl data
  | exchange err => simp only [step, stepApp]; exact alive_whileUp h _ fun _ hl => h.exchangeHandler hl err
  | write err => simp only [step, stepApp]; exact alive_whileUp h _ fun _ _ => h.writeHandler err

end

theorem alive_boot (config : BleHostConfig) (started : Int) (dtr : Bool) : Alive (boot config started dtr).app :=
  ⟨.of_idle rfl rfl rfl rfl rfl rfl, rfl⟩

theorem Reachable.alive {f : Firmware} (h : Reachable env f) : Alive f.app := by
  obtain ⟨config, started, dtr, es, rfl⟩ := h
  have hrun : ∀ f e, Reachable env f ∧ Alive f.app → Reachable env (step env f e) ∧ Alive (step env f e).app := by
    rintro f e ⟨hf, ha⟩
    exact ⟨hf.next env e, alive_step env ha hf.linkHeld.escape e⟩
  exact (Runs.run_invariant (P := fun f => Reachable env f ∧ Alive f.app) hrun
    ⟨⟨config, started, dtr, [], rfl⟩, alive_boot config started dtr⟩ es).2

end BleAtHost.Main
