import BleAtHost.Bridge.Lemmas.Output
import BleAtHost.Main.Lemmas.Control

/-!
# What the host can know of the mode

The bytes that the transmitter has accepted, followed by those of the control queue, are only ever extended. A
switch to data mode is pending while control bytes wait, and what is begun ends with the connection or with an
escape sequence.
-/

namespace BleAtHost.Main

open Relation

variable {s s' : App} {env : Env} {report : App → StackReport → Prop}

/-- The bytes that the transmitter has accepted and those that wait in the control queue. -/
def wire (s : App) : List Byte := collect Obs.filled s.log ++ s.ctrlTxRing.data

/-- A switch to data mode is pending only outside data mode, and while control bytes wait. -/
def Announcing (s : App) : Prop := s.dataModePendingEnter → s.appState ≠ .dataMode ∧ s.ctrlTxRing.data ≠ []

/-! ## The control queue -/

theorem collect_filled_of_none {new : List Obs} (hn : ∀ o ∈ new, o.filled = []) (log : List Obs) :
    collect Obs.filled (new ++ log) = collect Obs.filled log := by
  induction new with
  | nil => rfl
  | cons o new ih =>
      have hrest : collect Obs.filled (new ++ log) = collect Obs.filled log :=
        ih fun o' ho => hn o' (List.mem_cons_of_mem o ho)
      simp [hrest, hn o List.mem_cons_self]

theorem filled_of_output {o : Obs} (h : o.Output) : o.filled = [] := by
  cases o with
  | fill => exact h.elim
  | _ => rfl

theorem queueCtrlBytes_filled (s : App) (data : List Byte) :
    collect Obs.filled (queueCtrlBytes s data).log = collect Obs.filled s.log := by
  obtain ⟨_, _, new, hn, he⟩ := queueCtrlBytes_eq s data
  rw [he]
  exact collect_filled_of_none (fun o ho => filled_of_output (hn o ho)) s.log

theorem queueCtrlLine_filled (s : App) (line : Text) :
    collect Obs.filled (queueCtrlLine s line).log = collect Obs.filled s.log := by
  obtain ⟨_, _, new, hn, he⟩ := queueCtrlLine_eq s line
  rw [he]
  exact collect_filled_of_none (fun o ho => filled_of_output (hn o ho)) s.log

theorem queueCtrlLine_data (s : App) (line : Text) :
    (queueCtrlLine s line).ctrlTxRing.data =
      s.ctrlTxRing.data ++ (line ++ newline).take s.ctrlTxRing.spaceGet := by
  have hring : (queueCtrlLine s line).ctrlTxRing = ((s.ctrlTxRing.put line).2.put newline).2 := by
    change (queueCtrlBytes (queueCtrlBytes s line) newline).ctrlTxRing = _
    rw [queueCtrlBytes_ctrlTxRing, queueCtrlBytes_ctrlTxRing]
  rw [hring, RingBuf.put_data, RingBuf.put_spaceGet, RingBuf.put_data, List.append_assoc, List.take_append]

/-- A line is never lost whole. -/
theorem queueCtrlLine_data_ne_nil (s : App) (line : Text) : (queueCtrlLine s line).ctrlTxRing.data ≠ [] := by
  rw [queueCtrlLine_data]
  intro he
  obtain ⟨hold, hnew⟩ := List.append_eq_nil_iff.mp he
  rcases List.take_eq_nil_iff.mp hnew with hspace | hline
  · simp [RingBuf.spaceGet, hold, CTRL_TX_RING_SIZE] at hspace
  · simp [newline] at hline

/-! ## Actions -/

structure Onward (s s' : App) : Prop where
  wire : wire s <+: wire s'
  announcing : Announcing s → Announcing s'

theorem Onward.refl (s : App) : Onward s s := ⟨List.prefix_rfl, id⟩

theorem Onward.trans {s'' : App} (h : Onward s s') (h' : Onward s' s'') : Onward s s'' :=
  ⟨h.wire.trans h'.wire, h'.announcing ∘ h.announcing⟩

/-- The control queue and the transmitter are left alone. -/
theorem Onward.of_same (hc : s'.ctrlTxRing = s.ctrlTxRing)
    (hl : collect Obs.filled s'.log = collect Obs.filled s.log)
    (hp : s'.dataModePendingEnter → s.dataModePendingEnter)
    (hm : s.appState ≠ .dataMode → s'.appState ≠ .dataMode) : Onward s s' where
  wire := by rw [Main.wire, Main.wire, hl, hc]
  announcing ha hpending := by
    rw [hc]
    exact (ha (hp hpending)).imp_left hm

/-- The control queue grows. -/
theorem Onward.of_put {more : List Byte} (hc : s'.ctrlTxRing.data = s.ctrlTxRing.data ++ more)
    (hl : collect Obs.filled s'.log = collect Obs.filled s.log)
    (hp : s'.dataModePendingEnter = s.dataModePendingEnter) (hm : s'.appState = s.appState) : Onward s s' where
  wire := by
    rw [Main.wire, Main.wire, hl, hc, ← List.append_assoc]
    exact List.prefix_append _ _
  announcing ha hpending := by
    obtain ⟨hmode, hdata⟩ := ha (hp ▸ hpending)
    rw [hm, hc]
    exact ⟨hmode, fun he => hdata (List.append_eq_nil_iff.mp he).1⟩

theorem onward_line (s : App) (line : Text) : Onward s (queueCtrlLine s line) := by
  have ha : Aside s (queueCtrlLine s line) := aside_line s line
  exact .of_put (queueCtrlLine_data s line) (queueCtrlLine_filled s line) ha.dataModePendingEnter ha.appState

theorem onward_raw (s : App) (data : List Byte) : Onward s (queueCtrlBytes s data) := by
  have ha : Aside s (queueCtrlBytes s data) := aside_raw s data
  have hdata : (queueCtrlBytes s data).ctrlTxRing.data =
      s.ctrlTxRing.data ++ data.take s.ctrlTxRing.spaceGet := by rw [queueCtrlBytes_ctrlTxRing, RingBuf.put_data]
  exact .of_put hdata (queueCtrlBytes_filled s data) ha.dataModePendingEnter ha.appState

theorem Act.onward (h : Act env report s s') : Onward s s' := by
  have hmode : s.appState ≠ .dataMode → s'.appState ≠ .dataMode := h.mode
  cases h with
  | line text => exact onward_line s text
  | raw data => exact onward_raw s data
  | payloadInData data =>
      obtain ⟨_, _, _, new, hn, he⟩ := queueDataBytes_eq (countPayload s data) data
      rw [he] at hmode ⊢
      refine .of_same rfl ?_ id hmode
      exact (collect_filled_of_none (fun o ho => filled_of_output (hn o ho)) _).trans (by simp [countPayload, Obs.filled])
  | kick =>
      obtain ⟨_, he⟩ := kickUartTx_eq s
      rw [he]
      exact .of_same rfl rfl id id
  | lineState dtr =>
      cases dtr with
      | false => exact .of_same rfl rfl id id
      | true =>
          obtain ⟨_, he⟩ := kickUartTx_eq { s with controlDtrReady := true }
          simp only [usbMessageCb, Bool.not_true, Bool.false_eq_true, if_false, he]
          exact .of_same rfl rfl id id
  | enterAccepted text he hc hm hp =>
      have hline : Onward { s with dataModePendingEnter := true, log := .enterAccepted :: s.log }
          (queueCtrlLine { s with dataModePendingEnter := true, log := .enterAccepted :: s.log } text) :=
        onward_line _ text
      refine ⟨?_, fun _ _ => ⟨hmode hm, queueCtrlLine_data_ne_nil _ text⟩⟩
      have hstart : wire s = wire { s with dataModePendingEnter := true, log := .enterAccepted :: s.log } := by
        simp [wire, Obs.filled]
      rw [hstart]
      exact hline.wire
  | create peer =>
      simp only [createConnection]
      split
      · exact .of_same rfl (by simp [App.ask, Obs.filled]) id id
      · exact .of_same rfl (by simp [App.ask, setState, Obs.filled]) id fun _ => by simp [setState]
  | closed conn reason hl hc hpc =>
      have hclosed : ClosedFrom s (closeConnection env s conn reason) conn := closedFrom hc hpc reason
      obtain ⟨_, _, _, hlog⟩ := hclosed.log
      refine .of_same hclosed.ctrlTxRing ?_ (fun hp => ?_) hmode
      · rw [hlog]
        simp [Obs.filled]
      · rw [hclosed.dataModePendingEnter] at hp
        cases hp
  | readyFound =>
      rcases announceReady_cases s with ⟨he, _⟩ | ⟨he, _⟩
      · rw [he] at hmode ⊢; exact .of_same rfl (by simp [Obs.filled]) id hmode
      · rw [he] at hmode ⊢; exact .of_same rfl (by simp [Obs.filled]) id hmode
  | subscribed =>
      rcases announceReady_cases s with ⟨he, _⟩ | ⟨he, _⟩
      · rw [he] at hmode ⊢; exact .of_same rfl (by simp [Obs.filled]) id hmode
      · rw [he] at hmode ⊢; exact .of_same rfl (by simp [Obs.filled]) id hmode
  | flow =>
      unfold refreshUartRxFlowControl
      repeat' split
      all_goals exact .of_same rfl rfl id id
  | saved key value =>
      simp only [settingsSaveOne]
      split
      · exact .of_same rfl (by simp [App.ask, Obs.filled]) id id
      · exact .of_same rfl (by simp [App.ask, Obs.filled]) id id
  | _ =>
      exact .of_same rfl (by simp [App.ask, App.note, setState, countPayload, replaceProfile, Obs.filled]) id hmode

/-! ## Moves and the transmit service -/

theorem filled_of_streamed {o : Obs} (h : o.Streamed) : o.filled = [] := by
  cases o with
  | fill => exact h.elim
  | _ => rfl

theorem Streamed.onward (h : Streamed s s') : Onward s s' := by
  obtain ⟨_, _, _, _, _, _, _, _, _, _, _, new, hn, rfl⟩ := h
  exact .of_same rfl (collect_filled_of_none (fun o ho => filled_of_streamed (hn o ho)) s.log) id id

theorem Move.onward (h : Move env report s s') : Onward s s' := by
  cases h with
  | act ha => exact ha.onward
  | stream hs => exact hs.onward
  | left now =>
      refine .of_same rfl (by simp [leaveDataMode, clearDataModeSession, App.note, Obs.filled]) ?_ fun _ => ?_
      · exact fun hp => by cases hp
      · exact restState_ne_dataMode _

theorem Moves.onward (h : Moves env report s s') : Onward s s' :=
  Runs.invariant (P := Onward s) (fun hm hs => hs.trans hm.onward) h (Onward.refl s)

theorem wire_refresh (s : App) : wire (refreshUartRxFlowControl s) = wire s ∧
    (refreshUartRxFlowControl s).dataModePendingEnter = s.dataModePendingEnter := by
  unfold refreshUartRxFlowControl
  repeat' split
  all_goals exact ⟨rfl, rfl⟩

/-- If nothing waits the switch is made. -/
theorem announcing_activate (now : Int) (hm : s.dataModePendingEnter → s.appState ≠ .dataMode)
    (hc : s.dataModePendingEnter → s.currentConn ≠ none) :
    wire (activatePendingDataModeIfReady s now) = wire s ∧ Announcing (activatePendingDataModeIfReady s now) := by
  unfold activatePendingDataModeIfReady
  split
  · rename_i hstays
    refine ⟨rfl, fun hp => ?_⟩
    rcases hstays with hnot | hmode | hnone
    · simp [hp] at hnot
    · exact absurd hmode (hm hp)
    · exact absurd hnone (hc hp)
  · split
    · rename_i hwaits
      refine ⟨rfl, fun hp => ⟨hm hp, fun hnil => hwaits ?_⟩⟩
      simp [RingBuf.sizeGet, hnil]
    · obtain ⟨hwire, hpending⟩ := wire_refresh (enterDataModeNow s now)
      refine ⟨hwire.trans (by simp [wire, enterDataModeNow, Obs.filled]), fun hp => ?_⟩
      have hnot : (enterDataModeNow s now).dataModePendingEnter = true := hpending ▸ hp
      cases hnot

theorem onward_serviceUartTx (hr : s.ctrlTxRing.claimed = 0) (hc : s.dataModePendingEnter → s.currentConn ≠ none)
    (ha : Announcing s) (accept now : Int) :
    wire s <+: wire (serviceUartTx s accept now) ∧ Announcing (serviceUartTx s accept now) := by
  -- as long as control bytes wait the first call does nothing
  have hfirst : activatePendingDataModeIfReady s now = s := by
    unfold activatePendingDataModeIfReady
    split
    · rfl
    · rename_i hgo
      push Not at hgo
      have hp : s.dataModePendingEnter := by simpa using hgo.1
      rw [if_pos]
      simpa [RingBuf.sizeGet, hr] using (ha hp).2
  simp only [serviceUartTx, hfirst]
  split
  · rename_i hd
    have hnil : s.ctrlTxRing.data = [] := by simpa [RingBuf.sizeGet, hr] using hd.2
    have hnot : ¬s.dataModePendingEnter := fun hp => (ha hp).1 hd.1
    generalize fillFrom s.bleToHostRing accept = r
    have hwire : wire s <+: wire { s with bleToHostRing := r.2.2, log := .fill false r.2.1 :: s.log } := by
      simp [wire, hnil, Obs.filled]
    split
    · exact ⟨hwire, fun hp => absurd hp hnot⟩
    · obtain ⟨hsame, hann⟩ := announcing_activate
        (s := { s with bleToHostRing := r.2.2, log := .fill false r.2.1 :: s.log }) now
        (fun hp => absurd hp hnot) hc
      exact ⟨hsame ▸ hwire, hann⟩
  · have htakes := fillFrom_takes s.ctrlTxRing accept hr
    have hnone := fillFrom_of_none s.ctrlTxRing accept
    generalize fillFrom s.ctrlTxRing accept = r at htakes hnone ⊢
    have hwire : wire s = wire { s with ctrlTxRing := r.2.2, log := .fill true r.2.1 :: s.log } := by
      simp only [wire, collect, Obs.filled, List.append_assoc, htakes.1]
    split
    · rename_i hstop
      have hsent : r.2.1 = [] := hstop.elim hnone id
      have hdata : r.2.2.data = s.ctrlTxRing.data := by simpa [hsent] using htakes.1
      refine ⟨by rw [hwire]; exact List.prefix_rfl, fun hp => ?_⟩
      exact (ha hp).imp_right fun hne => hdata ▸ hne
    · obtain ⟨hsame, hann⟩ := announcing_activate
        (s := { s with ctrlTxRing := r.2.2, log := .fill true r.2.1 :: s.log }) now (fun hp => (ha hp).1) hc
      exact ⟨by rw [hsame, hwire], hann⟩

/-! ## Steps -/

theorem step_onward {f : Firmware} (hf : Reachable env f) (ha : Announcing f.app) (e : Event) :
    wire f.app <+: wire (step env f e).app ∧ Announcing (step env f e).app := by
  have hmove : ∀ {s s'}, Move env anyReport s s' → wire f.app <+: wire s ∧ Announcing s →
      wire f.app <+: wire s' ∧ Announcing s' :=
    fun hm hs => ⟨hs.1.trans hm.onward.wire, hm.onward.announcing hs.2⟩
  refine step_kept hmove ?_ hf.linkHeld (fun _ _ => trivial) ⟨List.prefix_rfl, ha⟩
  intro accept now rx _ _ _
  exact onward_serviceUartTx (hf.bridge env).transparent.ctrl (hf.bridge env).linked.conn_of_pending ha accept now

theorem Reachable.announcing {f : Firmware} (h : Reachable env f) : Announcing f.app := by
  obtain ⟨config, started, dtr, es, rfl⟩ := h
  have hrun : ∀ f e, Reachable env f ∧ Announcing f.app → Reachable env (step env f e) ∧ Announcing (step env f e).app :=
    fun f e h => ⟨h.1.next env e, (step_onward h.1 h.2 e).2⟩
  exact (Runs.run_invariant (P := fun f => Reachable env f ∧ Announcing f.app) hrun
    ⟨⟨config, started, dtr, [], rfl⟩, fun hp => by cases hp⟩ es).2

theorem step_log_suffix {f : Firmware} (hf : Reachable env f) (e : Event) : f.app.log <:+ (step env f e).app.log :=
  Runs.invariant (P := fun b : Bridge => f.app.log <:+ b.log) (fun hs hl => hl.trans (Bridge.Step.log_suffix hs))
    (step_refines env f (hf.bridge env).linked e) List.suffix_rfl

theorem collect_of_suffix {log log' : List Obs} (h : log <:+ log') (g : Obs → List Byte) :
    collect g log <+: collect g log' := by
  obtain ⟨new, rfl⟩ := h
  rw [collect_append]
  exact List.prefix_append _ _

/-! ## The way out of data mode -/

/-- Data mode, or the switch to it is pending. -/
def Engaged (s : App) : Prop := s.appState = .dataMode ∨ s.dataModePendingEnter

instance (s : App) : Decidable (Engaged s) := inferInstanceAs (Decidable (_ ∨ _))

/-- Engaged on a connection that is up. -/
structure Session (s : App) : Prop where
  engaged : Engaged s
  up : ∃ conn, s.link = .up conn ∧ s.currentConn = some conn

theorem Session.not_creating {conn : Conn} (h : Session s) (hl : s.link = .creating conn) : False := by
  obtain ⟨_, hup, _⟩ := h.up
  rw [hl] at hup
  cases hup

theorem Session.not_free (h : Session s) (hc : s.currentConn = none) : False := by
  obtain ⟨_, _, hcur⟩ := h.up
  rw [hc] at hcur
  cases hcur

/-- Outside data mode the switch is pending. -/
theorem Session.pending (h : Session s) (hm : s.appState ≠ .dataMode) : s.dataModePendingEnter :=
  h.engaged.resolve_left hm

theorem Session.announceReady (h : Session s) : Session (announceReady s) := by
  rcases announceReady_cases s with ⟨_, hm, hp⟩ | ⟨he, _⟩
  · have hpending := h.pending hm
    rw [hp] at hpending
    cases hpending
  · rw [he]
    exact ⟨h.engaged, h.up⟩

/-- Neither the connection is lost nor the guard timer of an escape sequence runs out. -/
def staying : App → StackReport → Prop := fun _ r => r ≠ .lost ∧ r ≠ .guardTimer

theorem Session.control (h : Session s) (hc : Control env staying s s') : Session s' := by
  cases hc with
  | aside ha =>
      refine ⟨?_, ?_⟩
      · rw [Engaged, ha.appState, ha.dataModePendingEnter]; exact h.engaged
      · rw [ha.link, ha.currentConn]; exact h.up
  | readyFound => exact h.announceReady
  | subscribed => exact h.announceReady
  | errorState hcur hm => exact ⟨.inr (h.pending hm), h.up⟩
  | disconnecting conn hcur hm => exact ⟨.inr (h.pending hm), h.up⟩
  | enterAccepted => exact ⟨.inr rfl, h.up⟩
  | entered => exact ⟨.inl rfl, h.up⟩
  | left now hm hr => exact absurd rfl hr.2
  | scanning durationS hcur => exact (h.not_free hcur).elim
  | scanStopped hm => exact ⟨.inr (h.pending (by rw [hm]; simp)), h.up⟩
  | create peer hcur => exact (h.not_free hcur).elim
  | connectFailed err conn hl => exact (h.not_creating hl).elim
  | opened conn hl => exact (h.not_creating hl).elim
  | closed conn reason hl hcur hpc hr => exact absurd rfl hr.1
  | _ => exact ⟨h.engaged, h.up⟩

theorem Reachable.session {f : Firmware} (h : Reachable env f) (he : Engaged f.app) : Session f.app := by
  have hlinked := (h.bridge env).linked
  obtain ⟨conn, hl⟩ : ∃ conn, f.app.link = .up conn := by
    rcases he with hm | hp
    · exact hlinked.up_of_dataMode hm
    · exact hlinked.up_of_pending hp
  exact ⟨he, conn, hl, (hlinked.up hl).1⟩

theorem step_engaged {f : Firmware} (hf : Reachable env f) (he : Engaged f.app) {e : Event}
    (hlost : e.report ≠ some .lost) (htimer : e.report ≠ some .guardTimer) : Engaged (step env f e).app := by
  have hcontrols : Controls env staying f.app (step env f e).app := by
    refine step_controls hf.linkHeld fun r hr => ⟨?_, ?_⟩
    · rintro rfl
      exact hlost hr
    · rintro rfl
      exact htimer hr
  exact (Runs.invariant (P := Session) (fun hc hs => hs.control hc) hcontrols (hf.session he)).engaged

/-- The guard timer of a whole escape sequence runs out at `now`. -/
def EscapeDue (s : App) (now : Int) : Prop :=
  s.escapeGuardWork.isSome ∧ s.escapeState.active ∧ s.escapeState.count = 3 ∧
    s.config.streamGuardTimeMs ≤ Detector.elapsed now s.lastHostRxTimeMs

instance (s : App) (now : Int) : Decidable (EscapeDue s now) := inferInstanceAs (Decidable (_ ∧ _ ∧ _ ∧ _))

theorem stepApp_escapeGuardWork (env : Env) {now : Int} (h : ¬EscapeDue s now) :
    Streamed s (stepApp env s (.escapeGuardWork now)) := by
  simp only [stepApp]
  split
  · rename_i hwork
    have hcancel : Streamed s { s with escapeGuardWork := none } := Streamed.quiet
    refine hcancel.trans ?_
    unfold escapeGuardWorkHandler
    dsimp only
    split
    · exact Streamed.refl _
    · rename_i ha
      split
      · rename_i hn
        split
        · exact ⟨_, _, _, _, _, _, _, _, _, _, _, [.guard now, .uptime now], by simp [Obs.Streamed], rfl⟩
        · rename_i hlate
          exact absurd ⟨hwork, by simpa using ha, hn, Nat.not_lt.mp hlate⟩ h
      · exact (streamed_flush _ now).trans (streamed_note (by exact True.intro) _)
  · exact Streamed.refl s

theorem Streamed.engaged (h : Streamed s s') : Engaged s' ↔ Engaged s := by
  obtain ⟨_, _, _, _, _, _, _, _, _, _, _, _, _, rfl⟩ := h
  rfl

/-- An escape that finds room for its line shows it to the host. -/
theorem wire_of_escapeDue (env : Env) {now : Int} (h : EscapeDue s now)
    (hroom : (dataModeLine false ++ newline).length ≤ s.ctrlTxRing.spaceGet) :
    wire (stepApp env s (.escapeGuardWork now)) = wire s ++ (dataModeLine false ++ newline) := by
  obtain ⟨hwork, ha, hn, hlate⟩ := h
  have hstep : stepApp env s (.escapeGuardWork now) =
      exitDataMode (({ s with escapeGuardWork := none }.note (.uptime now)).note (.exit now s.hostToBleRing.data)) := by
    simp only [stepApp, if_pos hwork, escapeGuardWorkHandler, ha, Bool.not_true, Bool.false_eq_true, if_false,
      if_pos hn, App.note]
    exact if_neg (Nat.not_lt.mpr hlate)
  rw [hstep]
  generalize ht : ({ s with escapeGuardWork := none }.note (.uptime now)).note (.exit now s.hostToBleRing.data) = t
  have hctrl : t.ctrlTxRing = s.ctrlTxRing := by rw [← ht]; rfl
  have hfilled : collect Obs.filled t.log = collect Obs.filled s.log := by
    rw [← ht]
    simp [App.note, Obs.filled]
  have hkick := kickUartTx_eq (atHostNotifyDataMode (clearDataModeSession t true) false)
  obtain ⟨irq, hkick⟩ := hkick
  have hline := queueCtrlLine_data (clearDataModeSession t true) (dataModeLine false)
  have hlog := queueCtrlLine_filled (clearDataModeSession t true) (dataModeLine false)
  simp only [exitDataMode, hkick]
  rw [(wire_refresh _).1, wire]
  change collect Obs.filled (queueCtrlLine (clearDataModeSession t true) (dataModeLine false)).log ++
    (queueCtrlLine (clearDataModeSession t true) (dataModeLine false)).ctrlTxRing.data = _
  have hspace : (clearDataModeSession t true).ctrlTxRing = s.ctrlTxRing := hctrl
  have hclear : collect Obs.filled (clearDataModeSession t true).log = collect Obs.filled t.log := by
    simp [clearDataModeSession, Obs.filled]
  rw [hline, hlog, hspace, hclear, hfilled, List.take_of_length_le hroom, wire, List.append_assoc]

end BleAtHost.Main
