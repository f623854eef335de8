import BleAtHost.Main.Lemmas.Control

/-!
# The connection and its reference

The connection object, the application state and the connection of the profile manager stay in step, and every
reference that `bt_conn_le_create` hands out is given back once.
-/

namespace BleAtHost.Main

variable {s s' : App} {env : Env} {report : App → StackReport → Prop} {conn : Conn}

/-- `bt_conn_le_create` succeeds and hands out a reference to `conn`. -/
def Obs.obtains (conn : Conn) : Obs → Bool
  | .stack (.connCreate c _ _ _ _) result => c == conn && result == 0
  | _ => false

def Obs.releases (conn : Conn) : Obs → Bool
  | .connUnref c => c == conn
  | _ => false

/-- The states of a connection. -/
def AppState.Connected (m : AppState) : Prop := m = .connecting ∨ m = .controlReady ∨ m = .dataMode ∨ m = .disconnecting

structure ConnectionAccounting (s : App) : Prop where
  held : s.currentConn ≠ none ↔ s.appState.Connected
  free : s.currentConn = none ↔ s.appState = .idle ∨ s.appState = .scanning
  references : ∀ conn, s.log.countP (Obs.obtains conn) =
    s.log.countP (Obs.releases conn) + if s.currentConn = some conn then 1 else 0
  once : ∀ conn, s.log.countP (Obs.obtains conn) ≤ 1
  manager : s.pm.conn = none ∨ s.pm.conn = s.currentConn
  escape : s.escapeState.active → s.appState = .dataMode

/-- What the changes of the control keep of it. -/
structure ConnectionKept (s : App) : Prop where
  held : s.currentConn ≠ none ↔ s.appState.Connected
  references : ∀ conn, s.log.countP (Obs.obtains conn) =
    s.log.countP (Obs.releases conn) + if s.currentConn = some conn then 1 else 0
  once : ∀ conn, s.log.countP (Obs.obtains conn) ≤ 1
  fresh : ∀ conn : Conn, s.conns ≤ conn.id → s.log.countP (Obs.obtains conn) = 0
  manager : s.pm.conn = none ∨ s.pm.conn = s.currentConn
  creating : ∀ {conn}, s.link = .creating conn → s.currentConn = some conn ∧ s.pm.conn = none
  up : ∀ {conn}, s.link = .up conn → s.currentConn = some conn

/-- A scan runs without a connection. -/
theorem ConnectionKept.conn_of_scanning (h : ConnectionKept s) (hm : s.appState = .scanning) : s.currentConn = none := by
  by_contra hcur
  have hheld : s.appState.Connected := h.held.mp hcur
  simp [hm, AppState.Connected] at hheld

theorem ConnectionKept.manager_none (h : ConnectionKept s) (hc : s.currentConn = none) : s.pm.conn = none := by
  rcases h.manager with hm | hm
  · exact hm
  · rw [hm, hc]

/-! ## Observations that hand out and give back nothing -/

theorem obtains_of_aside {o : Obs} (h : o.Aside) : o.obtains conn = false := by
  cases o with
  | stack call result =>
      cases call with
      | connCreate => exact h.elim
      | _ => rfl
  | _ => rfl

theorem releases_of_aside {o : Obs} (h : o.Aside) : o.releases conn = false := by
  cases o with
  | connUnref => exact h.elim
  | _ => rfl

theorem countP_of_aside {p : Obs → Bool} (hp : ∀ {o : Obs}, o.Aside → p o = false) {new log : List Obs}
    (hn : ∀ o ∈ new, Obs.Aside o) : (new ++ log).countP p = log.countP p := by
  have hnew : new.countP p = 0 := List.countP_eq_zero.mpr fun o ho => by simp [hp (hn o ho)]
  rw [List.countP_append, hnew, Nat.zero_add]

/-! ## The changes of the control -/

/-- Changes that leave the connection alone and keep the state among those of a connection, or among the others. -/
theorem ConnectionKept.of_same (h : ConnectionKept s) (hc : s'.currentConn = s.currentConn)
    (hpc : s'.pm.conn = s.pm.conn) (hl : s'.link = s.link) (hn : s'.conns = s.conns)
    (ho : ∀ conn, s'.log.countP (Obs.obtains conn) = s.log.countP (Obs.obtains conn))
    (hr : ∀ conn, s'.log.countP (Obs.releases conn) = s.log.countP (Obs.releases conn))
    (hm : s.currentConn ≠ none ↔ s'.appState.Connected) : ConnectionKept s' where
  held := by rw [hc]; exact hm
  references conn := by rw [ho, hr, hc]; exact h.references conn
  once conn := by rw [ho]; exact h.once conn
  fresh conn hf := by rw [ho]; exact h.fresh conn (hn ▸ hf)
  manager := by rw [hpc, hc]; exact h.manager
  creating hlink := by rw [hc, hpc]; exact h.creating (hl ▸ hlink)
  up hlink := by rw [hc]; exact h.up (hl ▸ hlink)

theorem ConnectionKept.aside (h : ConnectionKept s) (ha : Aside s s') : ConnectionKept s' := by
  obtain ⟨new, hnew, hlog⟩ := ha.log
  refine h.of_same ha.currentConn ha.route.conn ha.link ha.conns ?_ ?_ ?_
  · intro conn
    rw [hlog, countP_of_aside obtains_of_aside hnew]
  · intro conn
    rw [hlog, countP_of_aside releases_of_aside hnew]
  · rw [ha.appState]; exact h.held

/-- The fields that the start of a connection sets. -/
structure Created (s s' : App) (conn : Option Conn) (m : AppState) (link : Link) (conns : Nat) : Prop where
  currentConn : s'.currentConn = conn
  appState : s'.appState = m
  link : s'.link = link
  conns : s'.conns = conns
  pm : s'.pm = s.pm
  dataModePendingEnter : s'.dataModePendingEnter = s.dataModePendingEnter
  config : s'.config = s.config

/-- The end of the connection, after which its reference is gone. -/
theorem ConnectionKept.released {conn : Conn} (h : ConnectionKept s) (hc : s.currentConn = some conn)
    (hc' : s'.currentConn = none) (hpc : s'.pm.conn = none) (hl : s'.link = .down) (hn : s'.conns = s.conns)
    (hm : s'.appState = .idle)
    (ho : ∀ c, s'.log.countP (Obs.obtains c) = s.log.countP (Obs.obtains c))
    (hr : ∀ c, s'.log.countP (Obs.releases c) = s.log.countP (Obs.releases c) + if conn = c then 1 else 0) :
    ConnectionKept s' where
  held := by simp [hc', hm, AppState.Connected]
  references c := by
    rw [ho, hr, hc', h.references c, hc]
    simp
  once c := by rw [ho]; exact h.once c
  fresh c hf := by rw [ho]; exact h.fresh c (hn ▸ hf)
  manager := .inl hpc
  creating hlink := by rw [hl] at hlink; cases hlink
  up hlink := by rw [hl] at hlink; cases hlink

/-- What `bt_conn_le_create` changes, by its result. -/
theorem createConnection_cases (env : Env) (s : App) (peer : BtAddrLe) :
    ∃ minInterval maxInterval latency timeout result,
      (createConnection env s peer).2.log =
        .stack (.connCreate ⟨s.conns, peer⟩ minInterval maxInterval latency timeout) result :: s.log ∧
      (result ≠ 0 ∧ Created s (createConnection env s peer).2 none s.appState s.link s.conns ∨
        result = 0 ∧ Created s (createConnection env s peer).2 (some ⟨s.conns, peer⟩) .connecting
          (.creating ⟨s.conns, peer⟩) (s.conns + 1)) := by
  simp only [createConnection]
  split
  · rename_i hr
    exact ⟨_, _, _, _, env.answer s.calls, rfl, .inl ⟨hr, rfl, rfl, rfl, rfl, rfl, rfl, rfl⟩⟩
  · rename_i hr
    exact ⟨_, _, _, _, env.answer s.calls, rfl, .inr ⟨not_not.mp hr, rfl, rfl, rfl, rfl, rfl, rfl, rfl⟩⟩

theorem ConnectionKept.created (h : ConnectionKept s) (peer : BtAddrLe) (hc : s.currentConn = none) :
    ConnectionKept (createConnection env s peer).2 := by
  have hpc : s.pm.conn = none := h.manager_none hc
  obtain ⟨_, _, _, _, result, hlog, ⟨hr, ha⟩ | ⟨hr, ha⟩⟩ := createConnection_cases env s peer
  · -- the stack refuses: the pointer stays NULL
    refine h.of_same (ha.currentConn.trans hc.symm) (congrArg _ ha.pm) ha.link ha.conns (fun c => ?_) (fun c => ?_) ?_
    · rw [hlog]
      simp [Obs.obtains, hr]
    · rw [hlog]
      simp [Obs.releases]
    · rw [ha.appState]; exact h.held
  · -- a connection that was never handed out before
    have hnew : s.log.countP (Obs.obtains ⟨s.conns, peer⟩) = 0 := h.fresh _ le_rfl
    have hobtains : ∀ c, (createConnection env s peer).2.log.countP (Obs.obtains c) =
        s.log.countP (Obs.obtains c) + if (⟨s.conns, peer⟩ : Conn) = c then 1 else 0 := by
      intro c
      rw [hlog]
      simp [List.countP_cons, Obs.obtains, hr]
    have hreleases : ∀ c, (createConnection env s peer).2.log.countP (Obs.releases c) =
        s.log.countP (Obs.releases c) := by
      intro c
      rw [hlog]
      simp [Obs.releases]
    constructor
    · simp [ha.currentConn, ha.appState, AppState.Connected]
    · intro c
      rw [hobtains, hreleases, h.references c, hc, ha.currentConn]
      simp
    · intro c
      rw [hobtains]
      split
      · rename_i he
        rw [← he, hnew]
      · exact h.once c
    · intro c hf
      rw [ha.conns] at hf
      rw [hobtains, h.fresh c (by omega), if_neg]
      rintro rfl
      exact absurd hf (Nat.not_succ_le_self s.conns)
    · exact .inl ((congrArg _ ha.pm).trans hpc)
    · intro c hl
      rw [ha.link] at hl
      cases hl
      exact ⟨ha.currentConn, (congrArg _ ha.pm).trans hpc⟩
    · intro c hl
      rw [ha.link] at hl
      cases hl

theorem ConnectionKept.announceReady {conn : Conn} (h : ConnectionKept s) (hl : s.link = .up conn) :
    ConnectionKept (announceReady s) := by
  rcases announceReady_cases s with ⟨he, _⟩ | ⟨he, _⟩
  · rw [he]
    refine h.of_same rfl rfl rfl rfl (fun _ => ?_) (fun _ => ?_) ?_
    · simp [Obs.obtains]
    · simp [Obs.releases]
    · simp [h.up hl, AppState.Connected]
  · rw [he]
    refine h.of_same rfl rfl rfl rfl (fun _ => ?_) (fun _ => ?_) h.held
    · simp [Obs.obtains]
    · simp [Obs.releases]

theorem ConnectionKept.control (h : ConnectionKept s) (hc : Control env report s s') : ConnectionKept s' := by
  cases hc with
  | aside ha => exact h.aside ha
  | readyFound conn hl => exact h.announceReady hl
  | subscribed conn hl => exact h.announceReady hl
  | errorState hcur =>
      refine h.of_same rfl rfl rfl rfl (fun _ => rfl) (fun _ => rfl) ?_
      simpa [setState, AppState.Connected, Option.isSome_iff_ne_none] using hcur
  | disconnecting conn hcur =>
      refine h.of_same rfl rfl rfl rfl (fun _ => ?_) (fun _ => ?_) ?_
      · simp [App.ask, setState, Obs.obtains]
      · simp [App.ask, setState, Obs.releases]
      · simp [App.ask, setState, hcur, AppState.Connected]
  | entered now hp hm hcur =>
      refine h.of_same rfl rfl rfl rfl (fun _ => ?_) (fun _ => ?_) ?_
      · simp [enterDataModeNow, Obs.obtains]
      · simp [enterDataModeNow, Obs.releases]
      · simpa [enterDataModeNow, AppState.Connected] using hcur
  | left now hm =>
      refine h.of_same rfl rfl rfl rfl (fun _ => ?_) (fun _ => ?_) ?_
      · simp [leaveDataMode, clearDataModeSession, App.note, Obs.obtains]
      · simp [leaveDataMode, clearDataModeSession, App.note, Obs.releases]
      · have hcur : s.currentConn ≠ none := h.held.mpr (by simp [hm, AppState.Connected])
        simp [leaveDataMode, clearDataModeSession, App.restState, App.note, AppState.Connected,
          Option.isSome_iff_ne_none, hcur]
  | scanning durationS hcur =>
      refine h.of_same rfl rfl rfl rfl (fun _ => rfl) (fun _ => rfl) ?_
      simp [hcur, setState, AppState.Connected]
  | scanStopped hm =>
      have hcur : s.currentConn = none := h.conn_of_scanning hm
      refine h.of_same rfl rfl rfl rfl (fun _ => ?_) (fun _ => ?_) ?_
      · simp [App.ask, setState, Obs.obtains]
      · simp [App.ask, setState, Obs.releases]
      · simp [setState, App.restState, hcur, AppState.Connected]
  | found chrc => exact h.of_same rfl (matchCharacteristic_conn _ _ _).1 rfl rfl (fun _ => rfl) (fun _ => rfl) h.held
  | create peer hcur => exact h.created peer hcur
  | connectFailed err conn hl hcur =>
      refine h.released hcur rfl (h.creating hl).2 rfl rfl rfl (fun c => ?_) (fun c => ?_)
      · simp [Obs.obtains]
      · simp [List.countP_cons, Obs.releases]
  | opened conn hl =>
      have hcur : s.currentConn = some conn := (h.creating hl).1
      constructor
      · simp [hcur, AppState.Connected]
      · intro c
        simpa [List.countP_cons, Obs.obtains, Obs.releases] using h.references c
      · intro c
        simpa [List.countP_cons, Obs.obtains] using h.once c
      · intro c hf
        simpa [List.countP_cons, Obs.obtains] using h.fresh c hf
      · exact .inr hcur.symm
      · rintro c ⟨⟩
      · rintro c ⟨⟩
        exact hcur
  | closed conn reason hl hcur hpc =>
      have hclosed : ClosedFrom s (closeConnection env s conn reason) conn := closedFrom hcur hpc reason
      obtain ⟨_, _, _, hlog⟩ := hclosed.log
      refine h.released hcur hclosed.currentConn hclosed.pmConn hclosed.link hclosed.conns hclosed.appState ?_ ?_
      · intro c
        rw [hlog]
        simp [Obs.obtains]
      · intro c
        rw [hlog]
        simp [List.countP_cons, Obs.releases]
  | _ =>
      refine h.of_same rfl rfl rfl rfl (fun _ => ?_) (fun _ => ?_) h.held
      · simp [App.ask, replaceProfile, Obs.obtains]
      · simp [App.ask, replaceProfile, Obs.releases]

theorem connectionKept_boot (config : BleHostConfig) (started : Int) (dtr : Bool) :
    ConnectionKept (boot config started dtr).app := by
  constructor <;> simp [boot, AppState.Connected, Obs.obtains, Obs.releases]

theorem Reachable.connectionKept {f : Firmware} (h : Reachable env f) : ConnectionKept f.app :=
  Reachable.control connectionKept_boot (fun hc hk => hk.control hc) h

/-- The connection, the state and the reference count stay in step in every run. -/
theorem connection_accounting (env : Env) {f : Firmware} (h : Reachable env f) : ConnectionAccounting f.app := by
  have hkept : ConnectionKept f.app := h.connectionKept
  constructor
  · exact hkept.held
  · have hheld := hkept.held
    cases hm : f.app.appState <;> simp_all [AppState.Connected]
  · exact hkept.references
  · exact hkept.once
  · exact hkept.manager
  · exact h.linkHeld.escape

/-- A connection that fails and one that is opened and closed. -/
theorem connection_accounting_reconnect :
    ConnectionAccounting (Runs.run (step (stackRefusing [])) (boot sampleConfig 0 true)
      [hostSends "AT+STARTCON=0x010203040506,0\r\n" 0, .connected 2,
        hostSends "AT+STARTCON=0x010203040506,0\r\n" 5, .connected 0, .disconnected 19]).app :=
  connection_accounting (stackRefusing []) ⟨sampleConfig, 0, true, _, rfl⟩

end BleAtHost.Main
