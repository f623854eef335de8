import BleAtHost.Main.Lemmas.Settings

/-!
# Failed operations

What an operation that reports an error has changed: the application state for the operations on the connection,
the configuration in memory for the updates of the settings, and what the peer was asked for by `AT+CONPARAREQ`.
-/

namespace BleAtHost.Main

variable (env : Env)

/-! ## Settings -/

theorem settingsSaveAll_result (s : App) (items : List (SettingsKey × List Byte)) :
    (settingsSaveAll env s items).1 = 0 ↔ successes env s.calls items.length = items.length := by
  induction items generalizing s with
  | nil => exact iff_of_true rfl rfl
  | cons item items ih =>
      obtain ⟨key, value⟩ := item
      simp only [settingsSaveAll, settingsSaveOne, App.ask, List.length_cons, successes]
      by_cases hanswer : env.answer s.calls = 0
      · simp only [hanswer, ne_eq, not_true_eq_false, if_false, if_true, Nat.add_right_cancel_iff]
        exact ih _
      · simp only [hanswer, ne_eq, not_false_eq_true, if_true, if_false]
        exact iff_of_false not_false (by omega)

theorem call_result {s : App} {u : Update} {new : BleHostConfig} (h : u.config s.config = some new) :
    (u.call env s).1 = 0 ↔ successes env s.calls u.saveCount = u.saveCount := by
  obtain ⟨log, hcall⟩ := call_eq env s u
  rw [hcall, h, ← saves_length new]
  exact settingsSaveAll_result env _ _

/-- The call is refused, or changes nothing, or all of its saves succeed. -/
def Update.Settled (s : App) (u : Update) : Prop :=
  ∀ new, u.config s.config = some new → new = s.config ∨ successes env s.calls u.saveCount = u.saveCount

/-- An update that fails leaves the configuration alone exactly if it is refused, changes nothing or is saved. -/
theorem failed_update_iff (s : App) (u : Update) :
    ((u.call env s).1 ≠ 0 → (u.call env s).2.config = s.config) ↔ u.Settled env s := by
  cases hnew : u.config s.config with
  | none =>
      refine iff_of_true (fun _ => ?_) fun new he => ?_
      · rw [call_app_rejected env s u hnew]
      · rw [hnew] at he
        cases he
  | some new =>
      have hresult := call_result env hnew
      have hconfig := (call_app env s u hnew).1
      constructor
      · intro h new' he
        rw [hnew] at he
        cases he
        by_cases hsaved : successes env s.calls u.saveCount = u.saveCount
        · exact .inr hsaved
        · exact .inl (hconfig.symm.trans (h fun hz => hsaved (hresult.mp hz)))
      · intro h hne
        rcases h new hnew with he | hsaved
        · exact hconfig.trans he
        · exact absurd (hresult.mpr hsaved) hne

/-- The save of the new MTU fails, and the new one is in force. -/
theorem mtu_not_saved_in_force :
    let s := (boot defaultConfig 0 true).app
    let r := Update.call (stackRefusing [0]) s (.mtu 185)
    r.1 = -ENOMEM ∧ r.2.config.mtu = 185 ∧ r.2.config ≠ s.config := by decide

/-! ## Operations on the connection -/

inductive Operation where
  | startScan (durationS : Nat) (filterName : Option Text)
  | connect (mac : Text) (addrType : Nat)
  | disconnect (connIndex : Nat)
  | enterDataMode (connIndex : Nat)
deriving DecidableEq, Repr

def Operation.call (s : App) : Operation → Int × App
  | .startScan durationS filterName => opStartScan env s durationS filterName
  | .connect mac addrType => opConnect env s mac addrType
  | .disconnect connIndex => opDisconnect env s connIndex
  | .enterDataMode connIndex => opEnterDataMode s connIndex

/-- The application state, with the scan and its pending stop. -/
structure SameState (s s' : App) : Prop where
  appState : s'.appState = s.appState
  currentConn : s'.currentConn = s.currentConn
  dataModePendingEnter : s'.dataModePendingEnter = s.dataModePendingEnter
  scanStopWork : s'.scanStopWork = s.scanStopWork

theorem SameState.refl (s : App) : SameState s s := ⟨rfl, rfl, rfl, rfl⟩

/-- The checks of `op_connect`, up to the end of the scan. -/
def ConnectChecked (s : App) (mac : Text) (addrType : Nat) : Prop :=
  s.currentConn = none ∧ (bleHostAddrTypeFromWlt addrType).isSome ∧ (parseConnectMac env mac).isSome

/-- The stack refuses the stop of a scan. -/
def StopRefused (s : App) : Prop := env.answer s.calls ≠ 0 ∧ env.answer s.calls ≠ -EALREADY

/-- Where an operation fails halfway: `op_connect` has cancelled the pending stop of a scan that the stack does not
stop, or has stopped the scan and gets no connection; `op_disconnect` has left the state for a disconnection that
the stack refuses. -/
def Operation.Halfway (s : App) : Operation → Prop
  | .startScan _ _ => False
  | .connect mac addrType =>
      ConnectChecked env s mac addrType ∧ s.appState = .scanning ∧
        ((StopRefused env s ∧ s.scanStopWork.isSome) ∨ (¬StopRefused env s ∧ env.answer (s.calls + 1) ≠ 0))
  | .disconnect connIndex =>
      connIndex = 0 ∧ s.currentConn.isSome ∧ s.appState ≠ .disconnecting ∧ env.answer s.calls ≠ 0
  | .enterDataMode _ => False

theorem stopScanInternal_refused {s : App} (hs : s.appState = .scanning) (h : StopRefused env s) :
    stopScanInternal env s false = (env.answer s.calls, ({ s with scanStopWork := none }.ask env .scanStop).2) := by
  unfold stopScanInternal
  rw [if_neg (not_not.mpr hs)]
  exact if_pos h

theorem stopScanInternal_stopped {s : App} (hs : s.appState = .scanning) (h : ¬StopRefused env s) :
    stopScanInternal env s false =
      (0, setState ({ s with scanStopWork := none }.ask env .scanStop).2 s.restState) := by
  unfold stopScanInternal
  rw [if_neg (not_not.mpr hs)]
  exact if_neg h

/-- If the result is an error the state is the same. -/
def Careful (s : App) (r : Int × App) : Prop := r.1 ≠ 0 → SameState s r.2

namespace Careful

variable {s : App}

theorem refused (err : Int) : Careful s (err, s) := fun _ => .refl s

theorem done (s' : App) : Careful s (0, s') := fun h => absurd rfl h

theorem of_ite {c : Prop} [Decidable c] {r r' : Int × App} (h : c → Careful s r) (h' : ¬c → Careful s r') :
    Careful s (if c then r else r') := by
  split
  · exact h ‹_›
  · exact h' ‹_›

theorem opStartScan (s : App) (durationS : Nat) (filterName : Option Text) :
    Careful s (opStartScan env s durationS filterName) := by
  unfold Main.opStartScan
  refine of_ite (fun _ => refused _) fun _ => of_ite (fun _ => refused _) fun _ => of_ite (fun _ => refused _) fun _ => ?_
  exact of_ite (fun _ _ => ⟨rfl, rfl, rfl, rfl⟩) fun _ => done _

theorem opEnterDataMode (s : App) (connIndex : Nat) : Careful s (opEnterDataMode s connIndex) := by
  unfold Main.opEnterDataMode
  refine of_ite (fun _ => refused _) fun _ => of_ite (fun _ => refused _) fun _ => of_ite (fun _ => refused _) fun _ => ?_
  exact of_ite (fun _ => refused _) fun _ => done _

theorem opDisconnect_iff (connIndex : Nat) :
    Careful s (opDisconnect env s connIndex) ↔ ¬(Operation.disconnect connIndex).Halfway env s := by
  unfold Main.opDisconnect
  by_cases hindex : connIndex ≠ 0
  · rw [if_pos hindex]
    exact iff_of_true (refused _) fun h => hindex h.1
  · rw [if_neg hindex]
    cases hconn : s.currentConn with
    | none =>
        refine iff_of_true (refused _) fun h => ?_
        have hsome := h.2.1
        rw [hconn] at hsome
        cases hsome
    | some conn =>
        constructor
        · exact fun hcareful h => h.2.2.1 (hcareful h.2.2.2).appState.symm
        · intro hnot hanswer
          have hstate : s.appState = .disconnecting := by
            by_contra hne
            exact hnot ⟨not_not.mp hindex, by rw [hconn]; rfl, hne, hanswer⟩
          exact ⟨hstate.symm, rfl, rfl, rfl⟩

theorem createConnection {s : App} (hconn : s.currentConn = none) (peer : BtAddrLe) :
    Careful s (createConnection env s peer) := by
  unfold Main.createConnection
  exact of_ite (fun _ _ => ⟨rfl, hconn.symm, rfl, rfl⟩) fun _ => done _

/-- The rest of `op_connect` while a scan is running. -/
theorem connectScanning_iff {mac : Text} {addrType : Nat} (hchecked : ConnectChecked env s mac addrType)
    (hscan : s.appState = .scanning) (peer : BtAddrLe) :
    Careful s
        (let (err, s) := stopScanInternal env s false
        if err ≠ 0 then (err, s) else Main.createConnection env s peer) ↔
      ¬(Operation.connect mac addrType).Halfway env s := by
  by_cases hstop : StopRefused env s
  · rw [stopScanInternal_refused env hscan hstop]
    dsimp only
    rw [if_pos hstop.1]
    constructor
    · intro hcareful h
      have hpending := (hcareful hstop.1).scanStopWork
      rcases h.2.2 with ⟨_, hsome⟩ | ⟨hnot, _⟩
      · rw [← hpending] at hsome
        cases hsome
      · exact hnot hstop
    · intro hnot _
      refine ⟨rfl, rfl, rfl, ?_⟩
      by_contra hne
      exact hnot ⟨hchecked, hscan, .inl ⟨hstop, Option.isSome_iff_ne_none.mpr fun hn => hne hn.symm⟩⟩
  · rw [stopScanInternal_stopped env hscan hstop]
    dsimp only
    rw [if_neg (by simp)]
    unfold Main.createConnection
    by_cases hanswer : env.answer (s.calls + 1) = 0
    · refine iff_of_true ?_ fun h => ?_
      · exact of_ite (fun hne => absurd hanswer hne) fun _ => done _
      · rcases h.2.2 with ⟨hrefused, _⟩ | ⟨_, hne⟩
        · exact hstop hrefused
        · exact hne hanswer
    · refine iff_of_false (fun hcareful => ?_) (not_not.mpr ⟨hchecked, hscan, .inr ⟨hstop, hanswer⟩⟩)
      have hfailed : env.answer ({ s with scanStopWork := none }.ask env .scanStop).2.calls ≠ 0 := hanswer
      dsimp only [App.ask, setState] at hcareful hfailed
      rw [if_pos hfailed] at hcareful
      have hstate := (hcareful hfailed).appState
      simp [App.restState, hchecked.1, hscan] at hstate

theorem opConnect_iff (mac : Text) (addrType : Nat) :
    Careful s (opConnect env s mac addrType) ↔ ¬(Operation.connect mac addrType).Halfway env s := by
  have hunchecked : ∀ err, ¬ConnectChecked env s mac addrType →
      (Careful s (err, s) ↔ ¬(Operation.connect mac addrType).Halfway env s) :=
    fun err hc => iff_of_true (refused err) fun h => hc h.1
  unfold Main.opConnect
  by_cases hconn : s.currentConn.isSome
  · rw [if_pos hconn]
    refine hunchecked _ fun hc => ?_
    rw [hc.1] at hconn
    cases hconn
  · rw [if_neg hconn]
    have hnone : s.currentConn = none := by simpa using hconn
    by_cases hbusy : s.appState = .connecting ∨ s.appState = .disconnecting
    · rw [if_pos hbusy]
      refine iff_of_true (refused _) fun h => ?_
      rw [h.2.1] at hbusy
      simp at hbusy
    · rw [if_neg hbusy]
      cases htype : bleHostAddrTypeFromWlt addrType with
      | none =>
          refine hunchecked _ fun hc => ?_
          rw [ConnectChecked, htype] at hc
          cases hc.2.1
      | some btAddrType =>
          cases hmac : parseConnectMac env mac with
          | none =>
              refine hunchecked _ fun hc => ?_
              rw [ConnectChecked, hmac] at hc
              cases hc.2.2
          | some val =>
              have hchecked : ConnectChecked env s mac addrType := ⟨hnone, by rw [htype]; rfl, by rw [hmac]; rfl⟩
              dsimp only
              by_cases hscan : s.appState = .scanning
              · rw [if_pos hscan]
                exact connectScanning_iff env hchecked hscan _
              · rw [if_neg hscan]
                exact iff_of_true (createConnection env hnone _) fun h => hscan h.2.1

end Careful

/-- An operation that fails leaves the application state alone exactly if it does not fail halfway. -/
theorem failed_operation_iff (s : App) (op : Operation) :
    ((op.call env s).1 ≠ 0 → SameState s (op.call env s).2) ↔ ¬op.Halfway env s := by
  cases op with
  | startScan durationS filterName => exact iff_of_true (Careful.opStartScan env s durationS filterName) not_false
  | connect mac addrType => exact Careful.opConnect_iff env mac addrType
  | disconnect connIndex => exact Careful.opDisconnect_iff env connIndex
  | enterDataMode connIndex => exact iff_of_true (Careful.opEnterDataMode s connIndex) not_false

/-- The stack has no memory for the disconnection; the application waits for it all the same. -/
theorem disconnect_refused :
    let s := (runReady (stackRefusing [7]) []).app
    let r := (Operation.disconnect 0).call (stackRefusing [7]) s
    Reachable (stackRefusing [7]) (runReady (stackRefusing [7]) []) ∧
      s.appState = .controlReady ∧ r.1 = -ENOMEM ∧ r.2.appState = .disconnecting ∧ ¬(r.1 ≠ 0 → SameState s r.2) := by
  intro s r
  obtain ⟨hready, hfailed, hleft⟩ : s.appState = .controlReady ∧ r.1 = -ENOMEM ∧ r.2.appState = .disconnecting := by
    decide
  refine ⟨reachable_runReady _ _, hready, hfailed, hleft, fun h => ?_⟩
  have hsame : r.2.appState = s.appState := (h (hfailed ▸ by decide)).appState
  rw [hready, hleft] at hsame
  cases hsame

/-! ## `AT+CONPARAREQ` -/

/-- What was observed between two states. -/
def newObs (s s' : App) : List Obs := s'.log.take (s'.log.length - s.log.length)

theorem newObs_append {s s' : App} {new : List Obs} (h : s'.log = new ++ s.log) : newObs s s' = new := by
  rw [newObs, h, List.length_append, Nat.add_sub_cancel, List.take_left]

/-- The four parameters, in memory and saved. -/
structure ParamsStored (s : App) (minInterval maxInterval latency timeout : UInt16) : Prop where
  memory : s.config.connIntervalMin = minInterval.toNat ∧ s.config.connIntervalMax = maxInterval.toNat ∧
    s.config.latency = latency.toNat ∧ s.config.timeout = timeout.toNat
  store : KeyStore.get s.store .connMin = some (le16 minInterval.toNat) ∧
    KeyStore.get s.store .connMax = some (le16 maxInterval.toNat) ∧
    KeyStore.get s.store .latency = some (le16 latency.toNat) ∧
    KeyStore.get s.store .timeout = some (le16 timeout.toNat)

/-- After an error the stack has accepted no request and the settings are as before; without one it has accepted
the request and the parameters are stored. -/
structure ActsOrRefuses (s : App) (minInterval maxInterval latency timeout : UInt16) (r : Int × App) : Prop where
  refused : r.1 ≠ 0 → (∀ conn a b c d, .stack (.connParamUpdate conn a b c d) 0 ∉ newObs s r.2) ∧
    r.2.config = s.config ∧ r.2.store = s.store
  accepted : r.1 = 0 → (∃ conn, s.currentConn = some conn ∧
      .stack (.connParamUpdate conn minInterval.toNat maxInterval.toNat latency.toNat timeout.toNat) 0 ∈ newObs s r.2) ∧
    ParamsStored r.2 minInterval maxInterval latency timeout

theorem successes_of_answers {calls : Nat} (h : ∀ n, calls ≤ n → env.answer n = 0) (n : Nat) :
    successes env calls n = n := by
  induction n generalizing calls with
  | zero => rfl
  | succ n ih => simp [successes, h calls (Nat.le_refl _), ih fun k hk => h k (Nat.le_of_succ_le hk)]

theorem settingsSaveAll_log (s : App) (items : List (SettingsKey × List Byte)) :
    s.log <:+ (settingsSaveAll env s items).2.log := by
  induction items generalizing s with
  | nil => exact List.suffix_rfl
  | cons item items ih =>
      obtain ⟨key, value⟩ := item
      have hone : s.log <:+ (settingsSaveOne env s key value).2.log := by
        unfold settingsSaveOne
        dsimp only [App.ask]
        split
        · exact List.suffix_cons _ _
        · exact List.suffix_cons _ _
      simp only [settingsSaveAll]
      split
      · exact hone
      · exact hone.trans (ih _)

/-- With saves that succeed the update of valid parameters stores them. -/
theorem updateConnParams_valid {s : App} (hsaves : ∀ n, s.calls ≤ n → env.answer n = 0)
    {minInterval maxInterval latency timeout : UInt16}
    (hv : connParamsValid minInterval.toNat maxInterval.toNat latency.toNat timeout.toNat) {r : Int × App}
    (hr : bleHostSettingsUpdateConnParams env s minInterval.toNat maxInterval.toNat latency.toNat timeout.toNat = r) :
    r.1 = 0 ∧ s.log <:+ r.2.log ∧ ParamsStored r.2 minInterval maxInterval latency timeout := by
  subst hr
  simp only [bleHostSettingsUpdateConnParams, hv, Bool.not_true, Bool.false_eq_true, if_false]
  generalize hs : ({ s with config := _ } : App) = start
  generalize hi : [(SettingsKey.connMin, le16 minInterval.toNat), _, _, _] = items
  have hlog : s.log = start.log := by rw [← hs]
  have hcalls : s.calls = start.calls := by rw [← hs]
  have hall := successes_of_answers env hsaves items.length
  rw [hcalls] at hall
  refine ⟨(settingsSaveAll_result env start items).mpr hall, hlog ▸ settingsSaveAll_log env start items, ?_⟩
  obtain ⟨rc, calls, log, he⟩ := settingsSaveAll_eq env start items
  rw [he, hall, List.take_length]
  refine ⟨?_, ?_⟩
  · rw [← hs]
    exact ⟨rfl, rfl, rfl, rfl⟩
  · rw [← hi]
    simp [savedItems, KeyStore.get_save]

/-- `AT+CONPARAREQ` acts or refuses, unless the stack accepts a request for parameters that the settings refuse. -/
theorem set_conn_params_iff {s : App} (hsaves : ∀ n, s.calls < n → env.answer n = 0) (connIndex : Nat)
    (minInterval maxInterval latency timeout : UInt16) :
    ActsOrRefuses s minInterval maxInterval latency timeout
        (opSetConnParams env s connIndex minInterval.toNat maxInterval.toNat latency.toNat timeout.toNat) ↔
      (connIndex = 0 → s.currentConn.isSome → env.answer s.calls = 0 →
        connParamsValid minInterval.toNat maxInterval.toNat latency.toNat timeout.toNat) := by
  have hself : s.log = [] ++ s.log := rfl
  have hnothing : newObs s s = [] := newObs_append hself
  have hinval : -EINVAL ≠ 0 := by decide
  have hrefused : ∀ err : Int, err ≠ 0 → ActsOrRefuses s minInterval maxInterval latency timeout (err, s) := by
    refine fun err herr => ⟨fun _ => ⟨fun conn a b c d hmem => ?_, rfl, rfl⟩, fun h => absurd h herr⟩
    rw [hnothing] at hmem
    cases hmem
  unfold opSetConnParams
  by_cases hindex : connIndex ≠ 0
  · rw [if_pos hindex]
    exact iff_of_true (hrefused _ hinval) fun h => absurd h hindex
  · rw [if_neg hindex]
    cases hconn : s.currentConn with
    | none => exact iff_of_true (hrefused _ (by decide)) fun _ h => by cases h
    | some conn =>
        dsimp only [App.ask]
        by_cases hanswer : env.answer s.calls = 0
        · rw [if_neg (not_not.mpr hanswer)]
          generalize hs : ({ s with calls := _, log := _ } : App) = asked
          have hlog : asked.log = [.stack (.connParamUpdate conn minInterval.toNat maxInterval.toNat latency.toNat
              timeout.toNat) 0] ++ s.log := by rw [← hs, hanswer]; rfl
          constructor
          · intro hact _ _ _
            by_contra hv
            have hfails : bleHostSettingsUpdateConnParams env asked minInterval.toNat maxInterval.toNat latency.toNat
                timeout.toNat = (-EINVAL, asked) := by
              rw [bleHostSettingsUpdateConnParams, if_pos (by simpa using hv)]
            rw [hfails] at hact
            refine (hact.refused hinval).1 conn minInterval.toNat maxInterval.toNat latency.toNat timeout.toNat ?_
            rw [newObs_append hlog]
            exact List.mem_singleton_self _
          · intro hgood
            have hsaves' : ∀ n, asked.calls ≤ n → env.answer n = 0 := by
              intro n hn
              rw [← hs] at hn
              exact hsaves n hn
            obtain ⟨hzero, ⟨more, hmore⟩, hstored⟩ :=
              updateConnParams_valid env hsaves' (hgood (not_not.mp hindex) rfl hanswer) rfl
            refine ⟨fun hne => absurd hzero hne, fun _ => ⟨⟨conn, hconn, ?_⟩, hstored⟩⟩
            rw [hlog, ← List.append_assoc] at hmore
            rw [newObs_append hmore.symm]
            exact List.mem_append_right _ (List.mem_singleton_self _)
        · rw [if_pos hanswer]
          refine iff_of_true ⟨fun _ => ⟨fun conn' a b c d hmem => ?_, rfl, rfl⟩, fun h => absurd h hanswer⟩
            fun _ _ h => absurd h hanswer
          have hone : ∀ o : Obs, o :: s.log = [o] ++ s.log := fun _ => rfl
          rw [newObs_append (hone _), List.mem_singleton] at hmem
          exact hanswer (Obs.stack.inj hmem).2.symm

theorem set_conn_params_stored :
    ActsOrRefuses (runReady (stackRefusing []) []).app 100 200 0 400
      (opSetConnParams (stackRefusing []) (runReady (stackRefusing []) []).app 0 100 200 0 400) :=
  (set_conn_params_iff (stackRefusing []) (fun _ _ => rfl) 0 100 200 0 400).mpr fun _ _ _ => by decide

/-- The stack accepts an interval of 1000 units, which the settings refuse. -/
theorem set_conn_params_refused_too_late :
    let s := (runReady (stackRefusing []) []).app
    let r := opSetConnParams (stackRefusing []) s 0 1000 1000 0 400
    Reachable (stackRefusing []) (runReady (stackRefusing []) []) ∧
      r.1 = -EINVAL ∧ ¬ActsOrRefuses s 1000 1000 0 400 r := by
  intro s r
  obtain ⟨hresult, hasked⟩ : r.1 = -EINVAL ∧
      .stack (.connParamUpdate ⟨0, ⟨[6, 5, 4, 3, 2, 1], 0⟩⟩ 1000 1000 0 400) 0 ∈ newObs s r.2 := by decide
  refine ⟨reachable_runReady _ _, hresult, fun h => ?_⟩
  exact (h.refused (hresult ▸ by decide)).1 _ _ _ _ _ hasked

end BleAtHost.Main
