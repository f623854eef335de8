import BleAtHost.Main.Theorems.Connection

/-!
# The conditions of data mode

The request for data mode is checked when it is accepted, the switch is made later by the transmit service. What
the check saw still holds at the switch if nothing undoes it in between.
-/

namespace BleAtHost.Main

variable {s s' : App} {env : Env}

/-- Data mode may be entered from this state. -/
structure EntryConditions (s : App) : Prop where
  state : s.appState = .controlReady
  connection : ∃ conn, s.link = .up conn ∧ s.currentConn = some conn ∧
    ∀ result, Obs.stack (.connDisconnect conn) result ∉ s.log
  canEnter : profileManagerCanEnterDataMode s.pm
  found : s.pm.notifyFound ∧ s.pm.writeFound
  withoutResponse : s.pm.writeProperties &&& CHRC_WRITE_WITHOUT_RESP ≠ 0

/-- `bt_conn_disconnect` is called on `conn`. -/
def Obs.disconnects (conn : Conn) : Obs → Bool
  | .stack (.connDisconnect c) _ => c == conn
  | _ => false

/-- A disconnect was requested on the connection. -/
def DisconnectRequested (s : App) : Prop := ∃ conn ∈ s.currentConn, s.log.any (Obs.disconnects conn)

/-- `bt_gatt_subscribe` succeeds. -/
def Obs.subscribes : Obs → Bool
  | .stack (.gattSubscribe _ _) result => result == 0
  | _ => false

def SubscribeAccepted (log : List Obs) : Prop := (sinceConnected log).any Obs.subscribes

/-- The stack reports a subscription only on a connection on which one was requested. -/
def SubscribedFirst (f : Firmware) (e : Event) : Prop := e.subscription = some true → SubscribeAccepted f.app.log

def Event.transmits : Event → Bool
  | .uart (some _) _ => true
  | _ => false

/-- Nothing undoes what a pending request for data mode was checked against. -/
def Undisturbed (f : Firmware) (e : Event) : Prop :=
  f.app.dataModePendingEnter → (e.transmits → ¬DisconnectRequested f.app) ∧ e.subscription ≠ some false

instance (log : List Obs) : Decidable (SubscribeAccepted log) := inferInstanceAs (Decidable (_ = true))

instance (s : App) : Decidable (DisconnectRequested s) := inferInstanceAs (Decidable (∃ conn ∈ s.currentConn, _))

instance (f : Firmware) (e : Event) : Decidable (SubscribedFirst f e) := inferInstanceAs (Decidable (_ → _))

instance (f : Firmware) (e : Event) : Decidable (Undisturbed f e) := inferInstanceAs (Decidable (_ → _ ∧ _))

/-! ## The log -/

theorem subscribeAccepted_cons {o : Obs} {log : List Obs} (hc : o ≠ .connected 0) (ho : o.subscribes = false) :
    SubscribeAccepted (o :: log) ↔ SubscribeAccepted log := by
  simp [SubscribeAccepted, sinceConnected_cons hc, ho]

theorem subscribes_of_aside {o : Obs} (h : o.Aside) : o.subscribes = false := by
  cases o with
  | stack call result =>
      cases call with
      | gattSubscribe => exact h.elim
      | _ => rfl
  | _ => rfl

theorem subscribeAccepted_of_aside {new log : List Obs} (hn : ∀ o ∈ new, Obs.Aside o) :
    SubscribeAccepted (new ++ log) ↔ SubscribeAccepted log := by
  have hnone : new.any Obs.subscribes = false :=
    List.any_eq_false.mpr fun o ho => by simp [subscribes_of_aside (hn o ho)]
  rw [SubscribeAccepted, SubscribeAccepted, sinceConnected_append hn, List.any_append, hnone, Bool.false_or]

theorem not_subscribeAccepted_connected (log : List Obs) : ¬SubscribeAccepted (.connected 0 :: log) := by
  simp [SubscribeAccepted, sinceConnected]

theorem DisconnectRequested.of_suffix (h : DisconnectRequested s) (hc : s'.currentConn = s.currentConn)
    (hlog : s.log <:+ s'.log) : DisconnectRequested s' := by
  obtain ⟨conn, hcur, hany⟩ := h
  obtain ⟨o, hmem, ho⟩ := List.any_eq_true.mp hany
  exact ⟨conn, hc.trans hcur, List.any_eq_true.mpr ⟨o, hlog.subset hmem, ho⟩⟩

/-! ## What the changes of the control keep -/

structure EntryKept (s : App) : Prop where
  connection : ConnectionKept s
  ready : s.pm.ready → (∃ conn, s.link = .up conn) ∧ s.pm.notifyFound ∧ s.pm.writeFound
  pending : s.dataModePendingEnter → profileManagerCanEnterDataMode s.pm
  mode : s.pm.ready → s.appState ≠ .dataMode → s.appState = .controlReady ∨ DisconnectRequested s
  subscribed : (∃ conn, s.link = .up conn) → SubscribeAccepted s.log → s.pm.notifyFound ∧ s.pm.writeFound

/-- The reports that keep it. -/
def entryReport (s : App) : StackReport → Prop
  | .subscription true => SubscribeAccepted s.log
  | .subscription false => s.dataModePendingEnter = false
  | _ => True

theorem ready_of_canEnter {pm : ProfileManagerState} (h : profileManagerCanEnterDataMode pm) : pm.ready := by
  simp only [profileManagerCanEnterDataMode, Bool.and_eq_true] at h
  exact h.1.1.1

/-- Without a connection that is up nothing is ready. -/
theorem EntryKept.not_ready (h : EntryKept s) (hl : ∀ conn, s.link ≠ .up conn) :
    s.pm.ready = false ∧ s.dataModePendingEnter = false := by
  have hready : s.pm.ready = false := by
    rw [← Bool.not_eq_true]
    intro hr
    obtain ⟨⟨conn, hup⟩, _⟩ := h.ready hr
    exact hl conn hup
  refine ⟨hready, ?_⟩
  rw [← Bool.not_eq_true]
  intro hp
  rw [ready_of_canEnter (h.pending hp)] at hready
  cases hready

theorem EntryKept.not_up (h : EntryKept s) (hc : s.currentConn = none) : ∀ conn, s.link ≠ .up conn := by
  intro conn hup
  rw [h.connection.up hup] at hc
  cases hc

theorem EntryKept.of_same (h : EntryKept s) (hk : ConnectionKept s') (hr : s.pm.SameRoute s'.pm)
    (hl : s'.link = s.link) (hp : s'.dataModePendingEnter → s.dataModePendingEnter)
    (hs : SubscribeAccepted s'.log ↔ SubscribeAccepted s.log)
    (hm : s'.pm.ready → s'.appState ≠ .dataMode → s'.appState = .controlReady ∨ DisconnectRequested s') :
    EntryKept s' where
  connection := hk
  ready hready := by
    rw [hl, hr.notifyFound, hr.writeFound]
    exact h.ready (hr.ready ▸ hready)
  pending hpending := by
    rw [hr.canEnter]
    exact h.pending (hp hpending)
  mode := hm
  subscribed hup haccepted := by
    rw [hr.notifyFound, hr.writeFound]
    exact h.subscribed (hl ▸ hup) (hs.mp haccepted)

theorem EntryKept.mode_of_same (h : EntryKept s) (hr : s'.pm.ready = s.pm.ready)
    (hm : s'.appState = s.appState) (hc : s'.currentConn = s.currentConn) (hlog : s.log <:+ s'.log) :
    s'.pm.ready → s'.appState ≠ .dataMode → s'.appState = .controlReady ∨ DisconnectRequested s' := by
  intro hready hdata
  rw [hm] at hdata ⊢
  exact (h.mode (hr ▸ hready) hdata).imp_right fun hd => hd.of_suffix hc hlog

/-- The stack was asked for something else, or an observation was noted. -/
theorem EntryKept.of_note (h : EntryKept s) (hk : ConnectionKept s') {o : Obs} (hpm : s'.pm = s.pm)
    (hl : s'.link = s.link) (hp : s'.dataModePendingEnter = s.dataModePendingEnter) (hm : s'.appState = s.appState)
    (hc : s'.currentConn = s.currentConn) (hlog : s'.log = o :: s.log) (hconn : o ≠ .connected 0)
    (ho : o.subscribes = false) : EntryKept s' := by
  refine h.of_same hk ?_ hl (fun hpending => hp ▸ hpending) ?_ (h.mode_of_same ?_ hm hc ?_)
  · rw [hpm]; exact .refl _
  · rw [hlog]; exact subscribeAccepted_cons hconn ho
  · rw [hpm]
  · rw [hlog]; exact List.suffix_cons _ _

theorem EntryKept.of_not_ready (hk : ConnectionKept s') (hr : s'.pm.ready = false)
    (hp : s'.dataModePendingEnter = false) (hs : (∃ conn, s'.link = .up conn) → ¬SubscribeAccepted s'.log) :
    EntryKept s' where
  connection := hk
  ready hready := by rw [hr] at hready; cases hready
  pending hpending := by rw [hp] at hpending; cases hpending
  mode hready := by rw [hr] at hready; cases hready
  subscribed hup haccepted := absurd haccepted (hs hup)

theorem EntryKept.announceReady (h : EntryKept s) (hk : ConnectionKept (announceReady s)) {conn : Conn}
    (hl : s.link = .up conn) (hn : s.pm.notifyFound) (hw : s.pm.writeFound) : EntryKept (announceReady s) := by
  have hcan : profileManagerCanEnterDataMode s.pm → profileManagerCanEnterDataMode { s.pm with ready := true } := by
    simp only [profileManagerCanEnterDataMode, Bool.and_eq_true]
    exact fun hcan => ⟨⟨⟨trivial, hcan.1.1.2⟩, hcan.1.2⟩, hcan.2⟩
  rcases announceReady_cases s with ⟨he, _⟩ | ⟨he, hstay⟩
  · rw [he] at hk ⊢
    exact ⟨hk, fun _ => ⟨⟨conn, hl⟩, hn, hw⟩, fun hp => hcan (h.pending hp), fun _ _ => .inl rfl, fun _ _ => ⟨hn, hw⟩⟩
  · rw [he] at hk ⊢
    refine ⟨hk, fun _ => ⟨⟨conn, hl⟩, hn, hw⟩, fun hp => hcan (h.pending hp), fun _ hm => ?_, fun _ _ => ⟨hn, hw⟩⟩
    -- with a request pending the state stays what it was
    rcases hstay with hmode | hp
    · exact absurd hmode hm
    · have hready : s.pm.ready := ready_of_canEnter (h.pending hp)
      exact (h.mode hready hm).imp_right fun hd => hd.of_suffix rfl (List.suffix_cons _ _)

theorem matchCharacteristic_found (profile : BleProfile) (pm : ProfileManagerState) (chrc : GattChrc) :
    (pm.notifyFound → (matchCharacteristic profile pm chrc).notifyFound) ∧
      (pm.writeFound → (matchCharacteristic profile pm chrc).writeFound) := by
  unfold matchCharacteristic
  dsimp only
  repeat' split
  all_goals exact ⟨fun h => by simp_all, fun h => by simp_all⟩

theorem matchCharacteristic_canEnter {profile : BleProfile} {pm : ProfileManagerState} {chrc : GattChrc}
    (h : profileManagerCanEnterDataMode pm) : profileManagerCanEnterDataMode (matchCharacteristic profile pm chrc) := by
  have hw : pm.writeFound := by
    simp only [profileManagerCanEnterDataMode, Bool.and_eq_true] at h
    exact h.1.1.2
  unfold matchCharacteristic
  dsimp only
  repeat' split
  all_goals simp_all [profileManagerCanEnterDataMode]

theorem EntryKept.control (h : EntryKept s) (hc : Control env entryReport s s') : EntryKept s' := by
  have hk : ConnectionKept s' := h.connection.control hc
  have hlog : s.log <:+ s'.log := hc.log_suffix
  cases hc with
  | aside ha =>
      obtain ⟨new, hn, hnew⟩ := ha.log
      refine h.of_same hk ha.route ha.link (fun hp => ha.dataModePendingEnter ▸ hp) ?_
        (h.mode_of_same ha.route.ready ha.appState ha.currentConn hlog)
      rw [hnew]
      exact subscribeAccepted_of_aside hn
  | subscribe hn hw =>
      refine ⟨hk, h.ready, h.pending, ?_, fun _ _ => ⟨hn, hw⟩⟩
      exact h.mode_of_same rfl rfl rfl hlog
  | readyFound conn hl hn hw => exact h.announceReady hk hl hn hw
  | subscribed conn hl haccepted =>
      obtain ⟨hn, hw⟩ := h.subscribed ⟨conn, hl⟩ haccepted
      exact h.announceReady hk hl hn hw
  | unsubscribed conn hl hp =>
      have hp : s.dataModePendingEnter = false := hp
      refine ⟨hk, fun hr => (by cases hr), fun hpending => ?_, fun hr => (by cases hr), h.subscribed⟩
      rw [hp] at hpending
      cases hpending
  | found chrc conn hl =>
      obtain ⟨hn, hw⟩ := matchCharacteristic_found s.config.activeProfile s.pm chrc
      have hr := (matchCharacteristic_conn s.config.activeProfile s.pm chrc).2
      constructor
      · exact hk
      · intro hready
        obtain ⟨hup, hnotify, hwrite⟩ := h.ready (hr ▸ hready)
        exact ⟨hup, hn hnotify, hw hwrite⟩
      · exact fun hp => matchCharacteristic_canEnter (h.pending hp)
      · exact fun hready => h.mode (hr ▸ hready)
      · intro hup haccepted
        obtain ⟨hnotify, hwrite⟩ := h.subscribed hup haccepted
        exact ⟨hn hnotify, hw hwrite⟩
  | profile => exact h.of_same hk (.refl _) rfl id Iff.rfl (h.mode_of_same rfl rfl rfl hlog)
  | errorState => exact h.of_same hk (.refl _) rfl id Iff.rfl fun _ _ => .inl rfl
  | disconnecting conn hcur =>
      refine h.of_same hk (.refl _) rfl id (subscribeAccepted_cons (by simp) rfl) fun _ _ => .inr ?_
      exact ⟨conn, hcur, by simp [App.ask, Obs.disconnects]⟩
  | enterAccepted he =>
      have hsub : SubscribeAccepted (.enterAccepted :: s.log) ↔ SubscribeAccepted s.log :=
        subscribeAccepted_cons (by simp) rfl
      refine ⟨hk, h.ready, fun _ => he, h.mode_of_same rfl rfl rfl hlog, fun hup haccepted => ?_⟩
      exact h.subscribed hup (hsub.mp haccepted)
  | entered now =>
      refine h.of_same hk (.refl _) rfl (fun hp => by cases hp) ?_ fun _ hm => absurd rfl hm
      exact (subscribeAccepted_cons (by simp) rfl).trans (subscribeAccepted_cons (by simp) rfl)
  | left now =>
      refine h.of_same hk (.refl _) rfl (fun hp => by cases hp) ?_ fun hr _ => .inl ?_
      · exact ((subscribeAccepted_cons (by simp) rfl).trans (subscribeAccepted_cons (by simp) rfl)).trans
          (subscribeAccepted_cons (by simp) rfl)
      · obtain ⟨⟨conn, hup⟩, _⟩ := h.ready hr
        simp [leaveDataMode, clearDataModeSession, App.restState, App.note, h.connection.up hup]
  | scanning durationS hcur =>
      obtain ⟨hr, hp⟩ := h.not_ready (h.not_up hcur)
      refine .of_not_ready hk hr hp ?_
      rintro ⟨conn, hup⟩
      exact absurd hup (h.not_up hcur conn)
  | scanTimer => exact h.of_same hk (.refl _) rfl id Iff.rfl (h.mode_of_same rfl rfl rfl hlog)
  | scanStopped hm =>
      have hcur : s.currentConn = none := h.connection.conn_of_scanning hm
      obtain ⟨hr, hp⟩ := h.not_ready (h.not_up hcur)
      refine .of_not_ready hk hr hp ?_
      rintro ⟨conn, hup⟩
      exact absurd hup (h.not_up hcur conn)
  | create peer hcur =>
      obtain ⟨hr, hp⟩ := h.not_ready (h.not_up hcur)
      obtain ⟨_, _, _, _, _, _, ⟨_, ha⟩ | ⟨_, ha⟩⟩ := createConnection_cases env s peer
      · refine .of_not_ready hk (by rw [ha.pm]; exact hr) (by rw [ha.dataModePendingEnter]; exact hp) ?_
        rintro ⟨conn, hup⟩
        exact absurd (ha.link ▸ hup) (h.not_up hcur conn)
      · refine .of_not_ready hk (by rw [ha.pm]; exact hr) (by rw [ha.dataModePendingEnter]; exact hp) ?_
        rintro ⟨conn, hup⟩
        rw [ha.link] at hup
        cases hup
  | connectFailed err conn hl =>
      obtain ⟨hr, hp⟩ := h.not_ready fun c hup => by rw [hl] at hup; cases hup
      refine .of_not_ready hk hr hp ?_
      rintro ⟨c, hup⟩
      cases hup
  | opened conn hl =>
      obtain ⟨hr, hp⟩ := h.not_ready fun c hup => by rw [hl] at hup; cases hup
      exact .of_not_ready hk rfl hp fun _ => not_subscribeAccepted_connected s.log
  | closed conn reason hl hcur hpc =>
      have hclosed : ClosedFrom s (closeConnection env s conn reason) conn := closedFrom hcur hpc reason
      refine .of_not_ready hk hclosed.ready hclosed.dataModePendingEnter ?_
      rintro ⟨c, hup⟩
      rw [hclosed.link] at hup
      cases hup
  | _ => exact h.of_note hk rfl rfl rfl rfl rfl rfl (by simp) rfl

/-! ## The switch -/

/-- The service switches only with a request pending. -/
theorem serviceUartTx_mode (hm : s.appState ≠ .dataMode) {accept now : Int}
    (hd : (serviceUartTx s accept now).appState = .dataMode) : s.dataModePendingEnter := by
  have hserve : ∀ {t t'}, Serve t t' →
      (t.appState ≠ .dataMode ∧ t.dataModePendingEnter = s.dataModePendingEnter ∨ s.dataModePendingEnter) →
      (t'.appState ≠ .dataMode ∧ t'.dataModePendingEnter = s.dataModePendingEnter ∨ s.dataModePendingEnter) := by
    rintro t t' hs (⟨ht, hp⟩ | hp)
    · cases hs with
      | entered now hpending => exact .inr (hp ▸ hpending)
      | flow =>
          have ha : Aside t (refreshUartRxFlowControl t) := aside_flow t
          exact .inl ⟨by rw [ha.appState]; exact ht, ha.dataModePendingEnter.trans hp⟩
      | drained => exact .inl ⟨ht, hp⟩
      | stopped => exact .inl ⟨ht, hp⟩
    · exact .inr hp
  rcases Runs.invariant (fun hab ha => hserve hab ha) (serves_serviceUartTx s accept now) (.inl ⟨hm, rfl⟩) with ⟨ht, _⟩ | hp
  · exact absurd hd ht
  · exact hp

theorem EntryKept.conditions (h : EntryKept s) (hm : s.appState ≠ .dataMode) (hp : s.dataModePendingEnter)
    (hd : ¬DisconnectRequested s) : EntryConditions s := by
  have hcan : profileManagerCanEnterDataMode s.pm := h.pending hp
  have hready : s.pm.ready := ready_of_canEnter hcan
  obtain ⟨⟨conn, hup⟩, hfound⟩ := h.ready hready
  have hcur : s.currentConn = some conn := h.connection.up hup
  constructor
  · exact (h.mode hready hm).resolve_right hd
  · refine ⟨conn, hup, hcur, fun result hmem => hd ⟨conn, hcur, ?_⟩⟩
    exact List.any_eq_true.mpr ⟨_, hmem, by simp [Obs.disconnects]⟩
  · exact hcan
  · exact hfound
  · simp only [profileManagerCanEnterDataMode, Bool.and_eq_true] at hcan
    simpa using hcan.2

/-! ## Runs -/

theorem entryKept_run (env : Env) (config : BleHostConfig) (started : Int) (dtr : Bool) {es : List Event}
    (hstack : Runs.Along SubscribedFirst (step env) (boot config started dtr) es)
    (hundisturbed : Runs.Along Undisturbed (step env) (boot config started dtr) es) :
    Reachable env (Runs.run (step env) (boot config started dtr) es) ∧
      EntryKept (Runs.run (step env) (boot config started dtr) es).app := by
  have hstep : ∀ f (e : Event), SubscribedFirst f e ∧ Undisturbed f e → Reachable env f ∧ EntryKept f.app →
      Reachable env (step env f e) ∧ EntryKept (step env f e).app := by
    rintro f e ⟨hfirst, hquiet⟩ ⟨hf, hkept⟩
    refine ⟨hf.next env e, ?_⟩
    have hreport : ∀ r, e.report = some r → entryReport f.app r := by
      intro r he
      cases r with
      | subscription ready =>
          have hready : e.subscription = some ready := by simp only [Event.subscription, he]
          cases ready with
          | true => exact hfirst hready
          | false =>
              have hp : ¬f.app.dataModePendingEnter := fun hp => (hquiet hp).2 hready
              have hp : f.app.dataModePendingEnter = false := by simpa using hp
              exact hp
      | _ => trivial
    have hcontrols : Controls env entryReport f.app (step env f e).app := step_controls hf.linkHeld hreport
    exact Runs.invariant (P := EntryKept) (fun hc hk => hk.control hc) hcontrols hkept
  have hboot : EntryKept (boot config started dtr).app := by
    refine .of_not_ready (connectionKept_boot config started dtr) rfl rfl ?_
    rintro ⟨conn, hup⟩
    cases hup
  exact Runs.run_invariant_along (P := fun f => Reachable env f ∧ EntryKept f.app) hstep
    ⟨⟨config, started, dtr, [], rfl⟩, hboot⟩ (hstack.and hundisturbed)

/-- A step that switches to data mode starts from a state that allows it, as long as no step with a request pending
disturbs it. -/
theorem entry_conditions (env : Env) (config : BleHostConfig) (started : Int) (dtr : Bool) {es : List Event}
    {e : Event} (hstack : Runs.Along SubscribedFirst (step env) (boot config started dtr) (es ++ [e]))
    (hundisturbed : Runs.Along Undisturbed (step env) (boot config started dtr) (es ++ [e])) :
    (Runs.run (step env) (boot config started dtr) es).app.appState ≠ .dataMode →
      (step env (Runs.run (step env) (boot config started dtr) es) e).app.appState = .dataMode →
      EntryConditions (Runs.run (step env) (boot config started dtr) es).app := by
  obtain ⟨hstack, _⟩ := Runs.along_append.mp hstack
  obtain ⟨hundisturbed, hlast, _⟩ := Runs.along_append.mp hundisturbed
  obtain ⟨hf, hkept⟩ := entryKept_run env config started dtr hstack hundisturbed
  generalize Runs.run (step env) (boot config started dtr) es = f at hf hkept hlast ⊢
  intro hm
  have hmove : ∀ {s s'}, Move env anyReport s s' → (s.appState = .dataMode → EntryConditions f.app) →
      s'.appState = .dataMode → EntryConditions f.app :=
    fun hmv hs hd => hs (not_not.mp fun hn => hmv.mode hn hd)
  refine step_kept (P := fun s => s.appState = .dataMode → EntryConditions f.app) hmove ?_ hf.linkHeld
    (fun _ _ => trivial) (fun hd => absurd hd hm)
  rintro accept now rx he _ _ hd
  have hp : f.app.dataModePendingEnter := serviceUartTx_mode hm hd
  exact hkept.conditions hm hp ((hlast hp).1 (by rw [he]; rfl))

/-- A request, a report of the link and the switch. -/
theorem entry_conditions_request :
    EntryConditions (runReady (stackRefusing [])
      [hostSends "AT+ENTERDATAMODE=0\r\n" 3000, .leParamUpdated 6 0 400]).app := by
  have hrun : Runs.Along SubscribedFirst (step (stackRefusing [])) (boot sampleConfig 0 true)
        ((becomeReady ++ [hostSends "AT+ENTERDATAMODE=0\r\n" 3000, .leParamUpdated 6 0 400]) ++ [transmit 3001]) ∧
      Runs.Along Undisturbed (step (stackRefusing [])) (boot sampleConfig 0 true)
        ((becomeReady ++ [hostSends "AT+ENTERDATAMODE=0\r\n" 3000, .leParamUpdated 6 0 400]) ++ [transmit 3001]) ∧
      (runReady (stackRefusing []) [hostSends "AT+ENTERDATAMODE=0\r\n" 3000, .leParamUpdated 6 0 400]).app.appState ≠
        .dataMode ∧
      (step (stackRefusing []) (runReady (stackRefusing [])
        [hostSends "AT+ENTERDATAMODE=0\r\n" 3000, .leParamUpdated 6 0 400]) (transmit 3001)).app.appState =
        .dataMode := by decide +kernel
  obtain ⟨hstack, hundisturbed, hm, hd⟩ := hrun
  exact entry_conditions (stackRefusing []) sampleConfig 0 true hstack hundisturbed hm hd

/-- The host asks for the disconnect before it asks for data mode, or the peer ends the subscription between the
request and the switch. -/
theorem unchecked_switch :
    let es := becomeReady ++ [hostSends "AT+DISCON=0\r\n" 2000, hostSends "AT+ENTERDATAMODE=0\r\n" 3000]
    let es' := becomeReady ++ [hostSends "AT+ENTERDATAMODE=0\r\n" 3000, .notify none]
    let f := Runs.run (step (stackRefusing [])) (boot sampleConfig 0 true) es
    let f' := Runs.run (step (stackRefusing [])) (boot sampleConfig 0 true) es'
    Runs.Along SubscribedFirst (step (stackRefusing [])) (boot sampleConfig 0 true) (es ++ [transmit 3001]) ∧
      (f.app.appState = .disconnecting ∧ (step (stackRefusing []) f (transmit 3001)).app.appState = .dataMode ∧
        ¬EntryConditions f.app) ∧
      Runs.Along SubscribedFirst (step (stackRefusing [])) (boot sampleConfig 0 true) (es' ++ [transmit 3001]) ∧
      f'.app.appState ≠ .dataMode ∧ (step (stackRefusing []) f' (transmit 3001)).app.appState = .dataMode ∧
        ¬EntryConditions f'.app := by
  intro es es' f f'
  have hrun : Runs.Along SubscribedFirst (step (stackRefusing [])) (boot sampleConfig 0 true) (es ++ [transmit 3001]) ∧
      f.app.appState = .disconnecting ∧ (step (stackRefusing []) f (transmit 3001)).app.appState = .dataMode := by
    decide +kernel
  have hrun' : Runs.Along SubscribedFirst (step (stackRefusing [])) (boot sampleConfig 0 true) (es' ++ [transmit 3001]) ∧
      f'.app.appState ≠ .dataMode ∧ (step (stackRefusing []) f' (transmit 3001)).app.appState = .dataMode ∧
      profileManagerCanEnterDataMode f'.app.pm = false := by decide
  obtain ⟨hstack, hm, hd⟩ := hrun
  obtain ⟨hstack', hm', hd', hcan⟩ := hrun'
  refine ⟨hstack, ⟨hm, hd, fun h => ?_⟩, hstack', hm', hd', fun h => ?_⟩
  · have hstate := h.state
    rw [hm] at hstate
    cases hstate
  · have hcan' := h.canEnter
    rw [hcan] at hcan'
    cases hcan'

end BleAtHost.Main
