import BleAtHost.Main.Theorems.Connection

/-!
# The write pump stays awake

Three work items run the pump. While a session lasts, one of them is pending whenever the ring holds something that
was not yet claimed.
-/

namespace BleAtHost.Main

open Relation

variable {s s' : App} {env : Env} {report : App → StackReport → Prop}

/-- A work item is pending whenever something is left to send. -/
def PumpAwake (s : App) : Prop :=
  0 < s.hostToBleRing.sizeGet → s.bleWriteWork ∨ s.bleWriteRetryWork ∨ s.bleWriteCoalesceWork

/-- A send succeeds or is tried again. -/
def Obs.sentOrRetried : Obs → Bool
  | .write _ result _ => result = 0 ∨ IsRetried result
  | _ => true

/-- Data mode on a connection that can be written to, with sends that succeed or are tried again. -/
structure InSession (s : App) : Prop where
  mode : s.appState = .dataMode
  canEnter : profileManagerCanEnterDataMode s.pm
  sends : ∀ o ∈ session s.log, o.sentOrRetried

instance (s : App) : Decidable (InSession s) :=
  decidable_of_iff
    (s.appState = .dataMode ∧ profileManagerCanEnterDataMode s.pm ∧ ∀ o ∈ session s.log, o.sentOrRetried)
    ⟨fun ⟨hm, hc, hs⟩ => ⟨hm, hc, hs⟩, fun ⟨hm, hc, hs⟩ => ⟨hm, hc, hs⟩⟩

/-! ## The payload length -/

theorem matchCharacteristic_payloadLen (profile : BleProfile) (pm : ProfileManagerState) (chrc : GattChrc) :
    (matchCharacteristic profile pm chrc).payloadLen = pm.payloadLen := by
  unfold matchCharacteristic
  dsimp only
  repeat' split
  all_goals rfl

theorem payloadLen_control (hc : Control env report s s') (h : 0 < s.pm.payloadLen) : 0 < s'.pm.payloadLen := by
  have hready : 0 < (announceReady s).pm.payloadLen := by
    rcases announceReady_cases s with ⟨he, _⟩ | ⟨he, _⟩
    · rw [he]; exact h
    · rw [he]; exact h
  cases hc with
  | aside ha => exact ha.route.payloadLen h
  | found chrc => exact (matchCharacteristic_payloadLen _ _ chrc).symm ▸ h
  | readyFound => exact hready
  | subscribed => exact hready
  | create peer =>
      obtain ⟨_, _, _, _, _, _, ⟨_, ha⟩ | ⟨_, ha⟩⟩ := createConnection_cases env s peer
      · rw [ha.pm]; exact h
      · rw [ha.pm]; exact h
  | closed conn reason hl hcur hpc => exact (closedFrom hcur hpc reason).payloadLen
  | _ => exact h

theorem Reachable.payloadLen_pos {f : Firmware} (h : Reachable env f) : 0 < f.app.pm.payloadLen := by
  refine Reachable.control (P := fun s => 0 < s.pm.payloadLen) ?_ payloadLen_control h
  intro config started dtr
  simp only [boot]
  split
  · decide
  · omega

/-! ## The loop of the pump -/

/-- What the loop needs to go on. -/
structure CanSend (s : App) : Prop where
  conn : s.currentConn ≠ none
  canEnter : profileManagerCanEnterDataMode s.pm
  payloadLen : 0 < s.pm.payloadLen

theorem CanSend.of_route (h : CanSend s) (hc : s'.currentConn = s.currentConn) (hr : s.pm.SameRoute s'.pm) :
    CanSend s' where
  conn := by rw [hc]; exact h.conn
  canEnter := by rw [hr.canEnter]; exact h.canEnter
  payloadLen := hr.payloadLen h.payloadLen

theorem profileManagerSend_kept (env : Env) (s : App) (data : List Byte) :
    (profileManagerSend env s data).2.currentConn = s.currentConn ∧
      s.pm.SameRoute (profileManagerSend env s data).2.pm ∧
      (profileManagerSend env s data).2.hostToBleRing = s.hostToBleRing := by
  unfold profileManagerSend
  split; · exact ⟨rfl, .refl _, rfl⟩
  split; · exact ⟨rfl, .refl _, rfl⟩
  split; · exact ⟨rfl, .refl _, rfl⟩
  split; · exact ⟨rfl, .refl _, rfl⟩
  split; · exact ⟨rfl, .refl _, rfl⟩
  dsimp only
  split
  · exact ⟨rfl, ⟨rfl, rfl, rfl, rfl, rfl, rfl, id⟩, rfl⟩
  · exact ⟨rfl, ⟨rfl, rfl, rfl, rfl, rfl, rfl, id⟩, rfl⟩

/-- One pass up to the result of the send. -/
theorem sendChunk_kept (env : Env) (s : App) :
    (sendChunk env s).2.currentConn = s.currentConn ∧ s.pm.SameRoute (sendChunk env s).2.pm ∧
      (sendChunk env s).2.hostToBleRing = (s.hostToBleRing.getClaim s.pm.payloadLen).2 ∧
      ∃ log, (sendChunk env s).2.log = .write s.nextChunk (sendChunk env s).1 s.hostToBleRing.claimed :: log := by
  obtain ⟨hc, hr, hring⟩ := profileManagerSend_kept env
    { s with hostToBleRing := (s.hostToBleRing.getClaim s.pm.payloadLen).2 } s.nextChunk
  exact ⟨hc, hr, hring, _, rfl⟩

theorem nextChunk_ne_nil (h : 0 < s.pm.payloadLen) (hs : s.hostToBleRing.sizeGet ≠ 0) : s.nextChunk ≠ [] := by
  intro hn
  rcases List.take_eq_nil_iff.mp hn with hmax | hclaim
  · exact absurd hmax (by decide)
  · exact RingBuf.getClaim_ne_nil h (by omega) hclaim

/-- The ring gets shorter with every pass that goes on. -/
theorem finish_shortens {n k : Nat} {size : Nat} {ring : RingBuf Byte size} (hk : 0 < k)
    (hle : k ≤ (ring.getClaim n).1.length) : ((ring.getClaim n).2.getFinish k).2.data.length < ring.data.length := by
  have hlen : (ring.getClaim n).1.length ≤ ring.data.length := by
    have hsize := ring.getClaim_length_le_sizeGet n
    simp only [RingBuf.sizeGet] at hsize
    omega
  rw [(RingBuf.getClaim_getFinish hle).1, List.length_drop]
  omega

theorem finishChunk_kept (s : App) (claimLen : Nat) :
    (finishChunk s claimLen).currentConn = s.currentConn ∧ (finishChunk s claimLen).pm = s.pm ∧
      (finishChunk s claimLen).hostToBleRing = (s.hostToBleRing.getFinish claimLen).2 := by
  unfold finishChunk refreshUartRxFlowControl
  repeat' split
  all_goals exact ⟨rfl, rfl, rfl⟩

/-- The loop ends with the ring claimed to its end, or it has scheduled itself again. -/
theorem awake_bleWriteLoop (passes : Nat) (hlen : s.hostToBleRing.data.length < passes) (h : CanSend s)
    (hsends : ∀ o ∈ session (bleWriteLoop env passes s).log, o.sentOrRetried) :
    PumpAwake (bleWriteLoop env passes s) := by
  induction passes generalizing s with
  | zero => exact absurd hlen (Nat.not_lt_zero _)
  | succ passes ih =>
      unfold bleWriteLoop at hsends ⊢
      split at hsends
      · rename_i hstop
        rcases hstop with hnone | hnot
        · exact absurd hnone h.conn
        · simp [h.canEnter] at hnot
      rename_i hgo
      rw [if_neg hgo]
      split at hsends
      · rename_i hz
        rw [if_pos hz]
        exact fun hpos => absurd hz (Nat.pos_iff_ne_zero.mp hpos)
      rename_i hs
      rw [if_neg hs]
      split at hsends
      · rename_i hwait
        rw [if_pos hwait]
        exact fun _ => .inr (.inr rfl)
      rename_i hdue
      rw [if_neg hdue]
      have hchunk : s.nextChunk ≠ [] := nextChunk_ne_nil h.payloadLen hs
      rw [if_neg hchunk] at hsends ⊢
      obtain ⟨hconn, hroute, hring, log, hlog⟩ := sendChunk_kept env s
      generalize sendChunk env s = r at hsends hconn hroute hring hlog ⊢
      obtain ⟨err, t⟩ := r
      dsimp only at hsends hconn hroute hring hlog ⊢
      split at hsends
      · rename_i hok
        rw [if_pos hok]
        obtain ⟨hconn', hpm, hring'⟩ := finishChunk_kept t s.nextChunk.length
        refine ih ?_ (h.of_route (hconn'.trans hconn) (by rw [hpm]; exact hroute)) hsends
        have hle : s.nextChunk.length ≤ (s.hostToBleRing.getClaim s.pm.payloadLen).1.length := List.length_take_le' _ _
        have hshort := finish_shortens (List.length_pos_iff.mpr hchunk) hle
        rw [hring', hring]
        omega
      rename_i hfail
      rw [if_neg hfail]
      split at hsends
      · rename_i hretried
        rw [if_pos hretried]
        exact fun _ => .inr (.inl rfl)
      · rename_i hlost
        rw [hlog, session_cons (by simp)] at hsends
        have hsent : (Obs.write s.nextChunk err s.hostToBleRing.claimed).sentOrRetried := hsends _ List.mem_cons_self
        have hor : err = 0 ∨ IsRetried err := by simpa [Obs.sentOrRetried] using hsent
        exact absurd hor (not_or.mpr ⟨hfail, hlost⟩)

/-! ## The other handlers of the data path -/

/-- Whatever the ring holds, the scheduling leaves an item pending if anything is unclaimed. -/
theorem awake_schedule (hm : s.appState = .dataMode) (hc : s.currentConn ≠ none)
    (he : profileManagerCanEnterDataMode s.pm) : PumpAwake (scheduleDataModeBleTx s) := by
  unfold scheduleDataModeBleTx
  split
  · rename_i hidle
    rcases hidle with hnot | hnone | hcannot
    · exact absurd hm hnot
    · exact absurd hnone hc
    · simp [he] at hcannot
  · split
    · rename_i hz
      exact fun hpos => absurd hz (Nat.pos_iff_ne_zero.mp hpos)
    · split
      · exact fun _ => .inl rfl
      · exact fun _ => .inr (.inr rfl)

/-- The ring and the work items are the same. -/
structure SamePump (s s' : App) : Prop where
  hostToBleRing : s'.hostToBleRing = s.hostToBleRing
  bleWriteWork : s'.bleWriteWork = s.bleWriteWork
  bleWriteRetryWork : s'.bleWriteRetryWork = s.bleWriteRetryWork
  bleWriteCoalesceWork : s'.bleWriteCoalesceWork = s.bleWriteCoalesceWork

theorem PumpAwake.of_same (h : PumpAwake s) (hs : SamePump s s') : PumpAwake s' := by
  unfold PumpAwake
  rw [hs.hostToBleRing, hs.bleWriteWork, hs.bleWriteRetryWork, hs.bleWriteCoalesceWork]
  exact h

theorem samePump_refresh (s : App) : SamePump s (refreshUartRxFlowControl s) := by
  unfold refreshUartRxFlowControl
  repeat' split
  all_goals exact ⟨rfl, rfl, rfl, rfl⟩

theorem Streamed.same (h : Streamed s s') :
    s'.appState = s.appState ∧ s'.currentConn = s.currentConn ∧ s'.pm = s.pm := by
  obtain ⟨_, _, _, _, _, _, _, _, _, _, _, _, _, rfl⟩ := h
  exact ⟨rfl, rfl, rfl⟩

theorem PumpAwake.flush (h : PumpAwake s) (hm : s.appState = .dataMode) (hc : s.currentConn ≠ none)
    (he : profileManagerCanEnterDataMode s.pm) (now : Int) : PumpAwake (flushEscapeCandidateAsPayload s now) := by
  unfold flushEscapeCandidateAsPayload
  split
  · exact h
  · exact awake_schedule hm hc he

theorem awake_handleDataModeRx (hm : s.appState = .dataMode) (hc : s.currentConn ≠ none)
    (he : profileManagerCanEnterDataMode s.pm) (data : List RxByte) : PumpAwake (handleDataModeRx s data) := by
  obtain ⟨hm', hc', hpm⟩ := (streamed_dataModeRxBytes s.config.streamGuardTimeMs data s).same
  unfold handleDataModeRx
  dsimp only
  generalize data.foldl (dataModeRxByte s.config.streamGuardTimeMs) s = t at hm' hc' hpm ⊢
  have hawake : PumpAwake (scheduleDataModeBleTx t) :=
    awake_schedule (hm'.trans hm) (by rw [hc']; exact hc) (by rw [hpm]; exact he)
  exact hawake.of_same (samePump_refresh _)

theorem exitDataMode_mode (s : App) : (exitDataMode s).appState ≠ .dataMode := by
  have hclear : (clearDataModeSession s true).appState ≠ .dataMode := restState_ne_dataMode s
  have hline : Acts (stackRefusing []) anyReport (clearDataModeSession s true) (exitDataMode s) :=
    ((acts_line (dataModeLine false) hclear).tail .kick).tail .flow
  exact hline.mode hclear

theorem PumpAwake.escapeGuardWorkHandler (h : PumpAwake s) (hm : s.appState = .dataMode) (hc : s.currentConn ≠ none)
    (he : profileManagerCanEnterDataMode s.pm) (now : Int)
    (hm' : (escapeGuardWorkHandler s now).appState = .dataMode) : PumpAwake (escapeGuardWorkHandler s now) := by
  unfold Main.escapeGuardWorkHandler at hm' ⊢
  dsimp only at hm' ⊢
  split
  · exact h
  · rename_i ha
    rw [if_neg ha] at hm'
    split
    · rename_i hn
      rw [if_pos hn] at hm'
      split
      · exact h
      · rename_i hg
        rw [if_neg hg] at hm'
        exact absurd hm' (exitDataMode_mode _)
    · exact h.flush hm hc he now

/-! ## Control and transmit service -/

/-- Only the end of a connection touches the ring, and it ends data mode. -/
theorem Act.samePump (h : Act env report s s') (hm : s'.appState = .dataMode) : SamePump s s' := by
  have hready : SamePump s (announceReady s) := by
    rcases announceReady_cases s with ⟨he, _⟩ | ⟨he, _⟩
    · rw [he]; exact ⟨rfl, rfl, rfl, rfl⟩
    · rw [he]; exact ⟨rfl, rfl, rfl, rfl⟩
  cases h with
  | line text =>
      obtain ⟨_, _, _, _, he⟩ := queueCtrlLine_eq s text
      rw [he]; exact ⟨rfl, rfl, rfl, rfl⟩
  | raw data =>
      obtain ⟨_, _, _, _, he⟩ := queueCtrlBytes_eq s data
      rw [he]; exact ⟨rfl, rfl, rfl, rfl⟩
  | payloadInData data =>
      obtain ⟨_, _, _, _, _, he⟩ := queueDataBytes_eq (countPayload s data) data
      rw [he]; exact ⟨rfl, rfl, rfl, rfl⟩
  | kick =>
      obtain ⟨_, he⟩ := kickUartTx_eq s
      rw [he]; exact ⟨rfl, rfl, rfl, rfl⟩
  | lineState dtr =>
      cases dtr with
      | _ => exact ⟨rfl, rfl, rfl, rfl⟩
  | enterAccepted text =>
      obtain ⟨_, _, _, _, he⟩ :=
        queueCtrlLine_eq { s with dataModePendingEnter := true, log := .enterAccepted :: s.log } text
      rw [he]; exact ⟨rfl, rfl, rfl, rfl⟩
  | readyFound => exact hready
  | subscribed => exact hready
  | create peer =>
      simp only [createConnection]
      split
      · exact ⟨rfl, rfl, rfl, rfl⟩
      · exact ⟨rfl, rfl, rfl, rfl⟩
  | closed conn reason hl hc hpc =>
      rw [(closedFrom hc hpc reason).appState] at hm
      cases hm
  | flow => exact samePump_refresh s
  | saved key value =>
      simp only [settingsSaveOne]
      split
      · exact ⟨rfl, rfl, rfl, rfl⟩
      · exact ⟨rfl, rfl, rfl, rfl⟩
  | _ => exact ⟨rfl, rfl, rfl, rfl⟩

/-- In data mode the pump is awake. -/
def AwakeInData (s : App) : Prop := s.appState = .dataMode → PumpAwake s

theorem AwakeInData.acts (h : AwakeInData s) (ha : Acts env report s s') : AwakeInData s' := by
  have hstep : ∀ {a b}, Act env report a b → AwakeInData a → AwakeInData b := fun hab ha hm =>
    (ha (not_not.mp fun hn => hab.mode hn hm)).of_same (hab.samePump hm)
  exact Runs.invariant (P := AwakeInData) (fun hab ha => hstep hab ha) ha h

/-- Outside data mode there is nothing to send. -/
def EmptyOutside (s : App) : Prop := s.appState ≠ .dataMode → s.hostToBleRing.sizeGet = 0

theorem awake_serve (h : AwakeInData s) (ho : EmptyOutside s) (hs : Serve s s') :
    AwakeInData s' ∧ EmptyOutside s' := by
  cases hs with
  | entered now hp hm =>
      refine ⟨fun _ hpos => ?_, fun hn => absurd rfl hn⟩
      exact absurd (ho hm) (Nat.pos_iff_ne_zero.mp hpos)
  | flow =>
      have hsame : SamePump s (refreshUartRxFlowControl s) := samePump_refresh s
      have hmode : (refreshUartRxFlowControl s).appState = s.appState := (aside_flow s).appState
      refine ⟨fun hm => (h (hmode ▸ hm)).of_same hsame, fun hn => ?_⟩
      rw [hsame.hostToBleRing]
      exact ho (hmode ▸ hn)
  | drained => exact ⟨h, ho⟩
  | stopped => exact ⟨h, ho⟩

theorem awake_controlUartIsrTx {f : Firmware} (h : AwakeInData f.app) (ho : EmptyOutside f.app)
    (tx : Option (Int × Int)) :
    AwakeInData (controlUartIsrTx f tx).app ∧ ReflTransGen Serve f.app (controlUartIsrTx f tx).app := by
  unfold controlUartIsrTx
  split
  · rename_i accept now
    split
    · have hserves := serves_serviceUartTx f.app accept now
      exact ⟨(Runs.invariant (P := fun s => AwakeInData s ∧ EmptyOutside s) (fun hab ha => awake_serve ha.1 ha.2 hab)
        hserves ⟨h, ho⟩).1, hserves⟩
    · exact ⟨h, ReflTransGen.refl⟩
  · exact ⟨h, ReflTransGen.refl⟩

theorem streamed_controlUartIsrRx {f : Firmware} (hm : f.app.appState = .dataMode) (data : List RxByte) :
    Streamed f.app (controlUartIsrRx env f data).app := by
  simp only [controlUartIsrRx]
  split
  · exact Streamed.quiet
  · split
    · exact Streamed.refl _
    · exact (streamed_note (by exact True.intro) _).trans (streamed_handleDataModeRx _ _)

theorem awake_controlUartIsrRx {f : Firmware} (h : AwakeInData f.app) (data : List RxByte)
    (hc : (controlUartIsrRx env f data).app.currentConn ≠ none)
    (he : profileManagerCanEnterDataMode (controlUartIsrRx env f data).app.pm) :
    AwakeInData (controlUartIsrRx env f data).app := by
  by_cases hm : f.app.appState = .dataMode
  · have hstreamed : Streamed f.app (controlUartIsrRx env f data).app := streamed_controlUartIsrRx hm data
    obtain ⟨_, hconn, hpm⟩ := hstreamed.same
    rw [hconn] at hc
    rw [hpm] at he
    simp only [controlUartIsrRx]
    split
    · exact h
    · split
      · exact h
      · have hread : (f.app.note (.dataRx ((data.take CONTROL_UART_RX_CHUNK).map RxByte.ch)
            f.app.hostToBleRing.spaceGet f.app.escapeState.held)).appState = .dataMode := hm
        exact fun _ => awake_handleDataModeRx hread hc he _
  · have hmoves : Moves env anyReport f.app (controlUartIsrRx env f data).app := moves_controlUartIsrRx f data
    exact fun hm' => absurd hm' (hmoves.mode hm)

/-! ## Steps and sessions -/

theorem awake_stepApp {e : Event} (hl : LinkHeld s) (h : AwakeInData s) (hs : s.appState = .dataMode → CanSend s)
    (hsession : InSession (stepApp env s e)) : PumpAwake (stepApp env s e) := by
  have hm : s.appState = .dataMode := by
    have hmoves : Moves env anyReport s (stepApp env s e) := moves_stepApp hl e fun _ _ => trivial
    by_contra hn
    exact hmoves.mode hn hsession.mode
  have hawake : PumpAwake s := h hm
  cases e with
  | bleWriteWork =>
      simp only [stepApp] at hsession ⊢
      split
      · rename_i hw
        rw [if_pos hw] at hsession
        have hcan : CanSend { s with bleWriteWork := false } := (hs hm).of_route rfl (.refl _)
        exact awake_bleWriteLoop _ (Nat.lt_succ_self _) hcan hsession.sends
      · exact hawake
  | bleWriteRetryWork =>
      simp only [stepApp]
      split
      · exact fun _ => .inl rfl
      · exact hawake
  | bleWriteCoalesceWork =>
      simp only [stepApp]
      split
      · exact fun _ => .inl rfl
      · exact hawake
  | escapeGuardWork now =>
      simp only [stepApp] at hsession ⊢
      split
      · rename_i hw
        have hmode := hsession.mode
        rw [if_pos hw] at hmode
        have hcancel : PumpAwake { s with escapeGuardWork := none } := hawake
        exact hcancel.escapeGuardWorkHandler hm (hs hm).conn (hs hm).canEnter now hmode
      · exact hawake
  | _ =>
      have hkept : ∀ {s'}, Acts env anyReport s s' → AwakeInData s' := h.acts
      exact hkept (acts_stepApp env hl id fun _ _ => trivial) hsession.mode

theorem awake_step {f : Firmware} {e : Event} (hf : Reachable env f) (h : AwakeInData f.app)
    (ho : EmptyOutside f.app) (hs : f.app.appState = .dataMode → profileManagerCanEnterDataMode f.app.pm)
    (hsession : InSession (step env f e).app) : PumpAwake (step env f e).app := by
  have hconn : ∀ {f : Firmware}, Reachable env f → f.app.appState = .dataMode → f.app.currentConn ≠ none :=
    fun hr hm => hr.connectionKept.held.mpr (by simp [hm, AppState.Connected])
  have hafter : (step env f e).app.currentConn ≠ none := hconn (hf.next env e) hsession.mode
  cases e with
  | uart tx rx =>
      simp only [step, controlUartIsr] at hsession hafter ⊢
      obtain ⟨htx, _⟩ := awake_controlUartIsrTx h ho tx
      generalize controlUartIsrTx f tx = g at htx hsession hafter ⊢
      cases rx with
      | none => exact htx hsession.mode
      | some data =>
          dsimp only at hsession hafter ⊢
          split at hsession
          · rename_i hr
            rw [if_pos hr] at hafter ⊢
            exact awake_controlUartIsrRx htx data hafter hsession.canEnter hsession.mode
          · rename_i hr
            rw [if_neg hr]
            exact htx hsession.mode
  | _ => exact awake_stepApp hf.linkHeld h (fun hm => ⟨hconn hf hm, hs hm, hf.payloadLen_pos⟩) hsession

/-- Every state of a session that began with an empty ring has a work item pending whenever something is left to
send. -/
theorem pump_awake (env : Env) {f : Firmware} (h : Reachable env f) (hm : f.app.appState ≠ .dataMode)
    (hempty : f.app.hostToBleRing.sizeGet = 0) {e : Event} {es : List Event}
    (hsession : Runs.Along (fun f e => InSession (step env f e).app) (step env) f (e :: es)) :
    PumpAwake (Runs.run (step env) f (e :: es)).app := by
  obtain ⟨hfirst, hrest⟩ := hsession
  have hentered : PumpAwake (step env f e).app :=
    awake_step h (fun hd => absurd hd hm) (fun _ => hempty) (fun hd => absurd hd hm) hfirst
  have hstep : ∀ f (e : Event), InSession (step env f e).app →
      Reachable env f ∧ InSession f.app ∧ PumpAwake f.app →
      Reachable env (step env f e) ∧ InSession (step env f e).app ∧ PumpAwake (step env f e).app := by
    rintro f e hnext ⟨hf, hin, hawake⟩
    exact ⟨hf.next env e, hnext,
      awake_step hf (fun _ => hawake) (fun hn => absurd hin.mode hn) (fun _ => hin.canEnter) hnext⟩
  exact (Runs.run_invariant_along (P := fun f => Reachable env f ∧ InSession f.app ∧ PumpAwake f.app) hstep
    ⟨h.next env e, hfirst, hentered⟩ hrest).2.2

/-- A payload that is held back until the coalescing timer, and one whose send is tried again. -/
theorem pump_awake_retry :
    PumpAwake (Runs.run (step (stackRefusing [7]))
      (runReady (stackRefusing [7]) [hostSends "AT+ENTERDATAMODE=0\r\n" 3000])
      [transmit 3000, hostSends "abc" 3001, .bleWriteCoalesceWork, .bleWriteWork, hostSends "de" 3010]).app := by
  generalize hf : runReady (stackRefusing [7]) [hostSends "AT+ENTERDATAMODE=0\r\n" 3000] = f
  obtain ⟨hm, hempty, hsession⟩ : f.app.appState ≠ .dataMode ∧ f.app.hostToBleRing.sizeGet = 0 ∧
      Runs.Along (fun f e => InSession (step (stackRefusing [7]) f e).app) (step (stackRefusing [7])) f
        [transmit 3000, hostSends "abc" 3001, .bleWriteCoalesceWork, .bleWriteWork, hostSends "de" 3010] := by
    rw [← hf]
    decide
  exact pump_awake (stackRefusing [7]) (hf ▸ reachable_runReady _ _) hm hempty hsession

end BleAtHost.Main
