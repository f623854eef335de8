import BleAtHost.Main.Lemmas.Simulation

/-!
# The firmware refines the bridge

The data path, the link and the interrupt handler; then every step of the firmware, and so every run.
-/

namespace BleAtHost.Main

open Relation

variable {s s' : App}

/-! ## Data mode -/

theorem scheduleDataModeBleTx_bridge (s : App) (n : Nat) : (scheduleDataModeBleTx s).bridge n = s.bridge n := by
  unfold scheduleDataModeBleTx
  repeat' split
  all_goals rfl

theorem flush_bridge (s : App) (now : Int) (n : Nat) :
    (flushEscapeCandidateAsPayload s now).bridge n = (s.bridge n).flush now := by
  simp only [flushEscapeCandidateAsPayload, bridge_ite, scheduleDataModeBleTx_bridge]
  rfl

theorem flush_guardTime (s : App) (now : Int) :
    (flushEscapeCandidateAsPayload s now).config.streamGuardTimeMs = s.config.streamGuardTimeMs := by
  have h := Bridge.flush_same (s.bridge 0) now
  rw [← flush_bridge] at h
  exact h.guardTime

theorem openOrPut_bridge {guardTimeMs : Nat} (hg : s.config.streamGuardTimeMs = guardTimeMs) (b : RxByte) (n : Nat) :
    (openOrPut s guardTimeMs b).bridge n = (s.bridge n).consider b := by
  subst hg
  by_cases h : b.ch = PLUS ∧ s.config.streamGuardTimeMs ≤ Detector.elapsed b.now s.lastHostRxTimeMs
  · have hb : b.ch = PLUS ∧ (s.bridge n).guardTime ≤ Detector.elapsed b.now (s.bridge n).last := h
    simp only [openOrPut, Bridge.consider, if_pos h, if_pos hb]
    rfl
  · have hb : ¬(b.ch = PLUS ∧ (s.bridge n).guardTime ≤ Detector.elapsed b.now (s.bridge n).last) := h
    simp only [openOrPut, Bridge.consider, if_neg h, if_neg hb]
    split
    · rfl
    · rfl

theorem dataModeRxByte_bridge (s : App) (b : RxByte) (n : Nat) :
    (dataModeRxByte s.config.streamGuardTimeMs s b).bridge n = (s.bridge (n + 1)).rx b := by
  by_cases ha : s.escapeState.active
  · have ha' : (s.bridge (n + 1)).escape.active := ha
    -- the timer is stopped before anything else
    have htake : ({ s with
          escapeGuardWork := none
          log := .uptime b.now :: .rx b s.escapeState.held s.lastHostRxTimeMs :: s.log } : App).bridge n =
        (s.bridge (n + 1)).take b := by
      simp only [Bridge.take, if_pos ha']
      rfl
    by_cases he : b.ch = PLUS ∧ s.escapeState.count < 3
    · have he' : b.ch = PLUS ∧ (s.bridge (n + 1)).escape.count < 3 := he
      simp only [dataModeRxByte, Bridge.rx, if_pos ha, if_pos ha', if_pos he, if_pos he', ← htake]
      rfl
    · have he' : ¬(b.ch = PLUS ∧ (s.bridge (n + 1)).escape.count < 3) := he
      simp only [dataModeRxByte, Bridge.rx, if_pos ha, if_pos ha', if_neg he, if_neg he', ← htake]
      rw [openOrPut_bridge (flush_guardTime _ _), flush_bridge]
  · have ha' : ¬(s.bridge (n + 1)).escape.active := ha
    have htake : ({ s with
          log := .uptime b.now :: .rx b s.escapeState.held s.lastHostRxTimeMs :: s.log } : App).bridge n =
        (s.bridge (n + 1)).take b := by
      simp only [Bridge.take, if_neg ha']
      rfl
    simp only [dataModeRxByte, Bridge.rx, if_neg ha, if_neg ha', ← htake]
    exact openOrPut_bridge rfl b n

theorem rxLoop_bridge (data : List RxByte) (s : App) :
    (data.foldl (dataModeRxByte s.config.streamGuardTimeMs) s).bridge 0 =
      data.foldl Bridge.rx (s.bridge data.length) := by
  induction data generalizing s with
  | nil => rfl
  | cons b data ih =>
      have hb := dataModeRxByte_bridge s b data.length
      have hg : (dataModeRxByte s.config.streamGuardTimeMs s b).config.streamGuardTimeMs =
          s.config.streamGuardTimeMs := by
        have hsame := Bridge.rx_same (s.bridge (data.length + 1)) b
        rw [← hb] at hsame
        exact hsame.guardTime
      have hrest := ih (dataModeRxByte s.config.streamGuardTimeMs s b)
      rw [hg, hb] at hrest
      exact hrest

theorem handleDataModeRx_bridge (s : App) (data : List RxByte) :
    (handleDataModeRx s data).bridge 0 = (data.foldl Bridge.rx (s.bridge data.length)).refresh := by
  unfold handleDataModeRx
  rw [refresh_bridge, scheduleDataModeBleTx_bridge, rxLoop_bridge]

/-- One chunk in data mode. -/
theorem sim_handleDataModeRx (hm : s.appState = .dataMode) (data : List RxByte) :
    Sim s (handleDataModeRx
      (s.note (.dataRx (data.map RxByte.ch) s.hostToBleRing.spaceGet s.escapeState.held)) data) := by
  generalize ht : s.note (.dataRx (data.map RxByte.ch) s.hostToBleRing.spaceGet s.escapeState.held) = t
  have htm : t.appState = .dataMode := by rw [← ht]; exact hm
  have hread : Bridge.Step (s.bridge 0) (t.bridge data.length) := by
    have := Bridge.Step.read (b := s.bridge 0) (data.map RxByte.ch) hm
    rw [← ht]
    simpa [App.bridge, Bridge.note, App.note] using this
  have hrx := Bridge.steps_rx (b := t.bridge data.length) data htm (Nat.le_refl _)
  refine ⟨?_, fun h => absurd hm h⟩
  rw [handleDataModeRx_bridge]
  exact (ReflTransGen.head hread hrx).tail .refresh

theorem sim_flush (s : App) (now : Int) :
    (flushEscapeCandidateAsPayload s now).appState = s.appState := by
  have h := Bridge.flush_same (s.bridge 0) now
  rw [← flush_bridge] at h
  exact h.mode

/-- The handler runs when the work item was pending and is not any more. -/
theorem sim_escapeGuardWorkHandler (hp : s.escapeGuardWork.isSome) (now : Int) :
    Sim s (escapeGuardWorkHandler { s with escapeGuardWork := none } now) := by
  simp only [escapeGuardWorkHandler]
  split
  · rename_i ha
    have hna : ¬s.escapeState.active := by simpa using ha
    exact Sim.of_step_same (.idle (b := s.bridge 0) hna) rfl
  · rename_i ha
    have ha : s.escapeState.active = true := by simpa using ha
    split
    · rename_i hn
      split
      · refine Sim.of_step_same ?_ rfl
        have hw := Bridge.Step.wait (b := s.bridge 0) now ha hn
        have harmed : (s.bridge 0).armed = true := hp
        simpa [App.bridge, Bridge.note, App.note, hp] using hw
      · rename_i hg
        -- the step of the bridge reaches the cleared session; the line and the refresh follow it
        have hexit : Sim s (clearDataModeSession
            (({ s with escapeGuardWork := none }.note (.uptime now)).note (.exit now s.hostToBleRing.data)) true) :=
          Sim.of_step (.exit now s.restState ha hn (Nat.le_of_not_lt hg) (restState_ne_dataMode s))
            fun _ => restState_ne_dataMode s
        have hline := hexit.trans (sim_queueCtrlLine_of_not (dataModeLine false) (restState_ne_dataMode s))
        exact (hline.trans (sim_kickUartTx _)).trans (sim_refresh _)
    · rename_i hn
      have hflush : (flushEscapeCandidateAsPayload { s with escapeGuardWork := none } now).bridge 0 =
          ((s.bridge 0).flush now).disarm := by
        rw [flush_bridge]
        exact Bridge.flush_disarm (s.bridge 0) now
      refine Sim.of_step_same ?_ (sim_flush _ now)
      have he := Bridge.Step.expire (b := s.bridge 0) now ha hn
      have hnote : ((flushEscapeCandidateAsPayload { s with escapeGuardWork := none } now).note (.guard now)).bridge 0 =
          ((flushEscapeCandidateAsPayload { s with escapeGuardWork := none } now).bridge 0).note (.guard now) := rfl
      rw [hnote, hflush]
      exact he

/-! ## The pump -/

section
variable (env : Env)

/-- The profile manager does not look at the ring. -/
theorem profileManagerSend_ring (s : App) (ring : RingBuf Byte HOST_TO_BLE_RING_SIZE) (data : List Byte) :
    profileManagerSend env { s with hostToBleRing := ring } data =
      ((profileManagerSend env s data).1, { (profileManagerSend env s data).2 with hostToBleRing := ring }) := by
  unfold profileManagerSend
  cases hc : s.pm.conn with
  | none => rfl
  | some conn =>
      dsimp only [App.ask]
      repeat' split
      all_goals rfl

/-- What one pass sends, seen from the state after the call of the profile manager. -/
theorem sendChunk_eq (s : App) :
    ∃ t : App, Sim s t ∧ t.hostToBleRing = s.hostToBleRing ∧
      sendChunk env s = ((sendChunk env s).1,
        { t with
          hostToBleRing := (s.hostToBleRing.getClaim s.pm.payloadLen).2
          log := .write s.nextChunk (sendChunk env s).1 s.hostToBleRing.claimed :: t.log }) := by
  have ha : Acts env anyReport s (profileManagerSend env s s.nextChunk).2 := acts_profileManagerSend env s s.nextChunk
  have hs := ha.sim
  have hr := profileManagerSend_ring env s s.hostToBleRing s.nextChunk
  refine ⟨(profileManagerSend env s s.nextChunk).2, hs, congrArg (fun p => p.2.hostToBleRing) hr, ?_⟩
  simp only [sendChunk, profileManagerSend_ring]
  rfl

theorem sim_sendFailed (s : App) (h : (sendChunk env s).1 ≠ 0) : Sim s (sendChunk env s).2 := by
  obtain ⟨t, ht, hring, he⟩ := sendChunk_eq env s
  refine ht.trans (Sim.of_step_same ?_ (by rw [he]))
  have hstep := Bridge.Step.sendFailed (b := t.bridge 0) s.pm.payloadLen BLE_HOST_SEND_MAX_LEN _ h
  rw [he]
  simpa [Bridge.send, Bridge.chunk, App.bridge, App.nextChunk, hring] using hstep

theorem sim_sendAccepted (s : App) (h : (sendChunk env s).1 = 0) :
    Sim s (finishChunk (sendChunk env s).2 s.nextChunk.length) := by
  obtain ⟨t, ht, hring, he⟩ := sendChunk_eq env s
  have hb : (finishChunk (sendChunk env s).2 s.nextChunk.length).bridge 0 =
      (t.bridge 0).sendAccepted s.pm.payloadLen BLE_HOST_SEND_MAX_LEN := by
    rw [finishChunk, refresh_bridge, he, h]
    simp only [Bridge.sendAccepted, Bridge.send, Bridge.chunk, App.bridge, App.nextChunk, hring]
  refine ht.trans (Sim.of_step_same (by rw [hb]; exact .sendAccepted _ _) ?_)
  have hm := congrArg Bridge.mode hb
  simp only [Bridge.sendAccepted, Bridge.refresh_mode] at hm
  exact hm

/-- A claim that gives nothing to send gives nothing at all. -/
theorem getClaim_of_nextChunk (h : s.nextChunk = []) :
    (s.hostToBleRing.getClaim s.pm.payloadLen).2 = s.hostToBleRing := by
  refine RingBuf.getClaim_of_nil ?_
  rcases List.take_eq_nil_iff.mp h with h | h
  · exact absurd h (by decide)
  · exact h

theorem sim_bleWriteLoop (passes : Nat) (s : App) : Sim s (bleWriteLoop env passes s) := by
  induction passes generalizing s with
  | zero => exact Sim.refl s
  | succ passes ih =>
      unfold bleWriteLoop
      split; · exact Sim.refl s
      split; · exact Sim.of_eq rfl
      split; · exact Sim.of_eq rfl
      split
      · rename_i hn
        refine Sim.of_eq ?_
        simp only [App.bridge, getClaim_of_nextChunk hn]
      · have hok := sim_sendAccepted env s
        have hfail := sim_sendFailed env s
        rcases hr : sendChunk env s with ⟨err, t⟩
        rw [hr] at hok hfail
        dsimp only
        split
        · rename_i h0
          exact (hok h0).trans (ih _)
        · rename_i h0
          split
          · exact (hfail h0).trans (Sim.of_eq rfl)
          · exact hfail h0

end

/-! ## The UART -/

theorem activate_bridge (s : App) (now : Int) :
    (activatePendingDataModeIfReady s now).bridge 0 = (s.bridge 0).activate now := by
  simp only [activatePendingDataModeIfReady, bridge_ite, refresh_bridge]
  rfl

theorem fillFrom_takes {size : Nat} (ring : RingBuf Byte size) (accept : Int) :
    ring.Takes (fillFrom ring accept).2.1 (fillFrom ring accept).2.2 := by
  intro hc
  unfold fillFrom
  rcases hr : ring.getClaim UART_TX_CHUNK with ⟨data, claimed⟩
  have hclaim : (ring.getClaim UART_TX_CHUNK).1 = data := by rw [hr]
  have hring : (ring.getClaim UART_TX_CHUNK).2 = claimed := by rw [hr]
  dsimp only
  split
  · rename_i hd
    rw [← hring, RingBuf.getClaim_of_nil (hclaim.trans hd)]
    exact ⟨rfl, hc⟩
  · -- the transmitter accepts at most what it is given
    have hle : (uartFifoFill accept data).toNat ≤ (ring.getClaim UART_TX_CHUNK).1.length := by
      rw [hclaim]; unfold uartFifoFill; omega
    rw [← hring, ← hclaim]
    rw [← hclaim] at hle
    exact ⟨RingBuf.claimed_take_append hc hle, (RingBuf.getClaim_getFinish hle).2⟩

theorem fillFrom_of_none {size : Nat} (ring : RingBuf Byte size) (accept : Int)
    (h : (fillFrom ring accept).1 = 0) : (fillFrom ring accept).2.1 = [] := by
  unfold fillFrom at h ⊢
  rcases hr : ring.getClaim UART_TX_CHUNK with ⟨data, claimed⟩
  rw [hr] at h
  dsimp only at h ⊢
  split at h
  · rename_i hd; rw [if_pos hd]
  · rename_i hd; exact absurd (List.length_eq_zero_iff.mp h) hd

/-- One pass of the transmit service: the pending switch, then one ring, then the pending switch again. -/
theorem steps_serviceUartTx (s : App) (accept now : Int) :
    ReflTransGen Bridge.Step (s.bridge 0) ((serviceUartTx s accept now).bridge 0) := by
  have hact : Bridge.Step (s.bridge 0) ((activatePendingDataModeIfReady s now).bridge 0) := by
    rw [activate_bridge]; exact .activate now
  simp only [serviceUartTx]
  generalize activatePendingDataModeIfReady s now = t at hact ⊢
  refine ReflTransGen.head hact (ReflTransGen.single ?_)
  split
  · rename_i hd
    have htakes := fillFrom_takes t.bleToHostRing accept
    generalize fillFrom t.bleToHostRing accept = r at htakes ⊢
    obtain ⟨available, sent, ring⟩ := r
    have hstep : Bridge.Step (t.bridge 0) ((t.bridge 0).fillToHost sent ring) := .fillToHost sent ring htakes hd.1 hd.2
    dsimp only
    split
    · exact hstep
    · rw [activate_bridge, Bridge.activate_of_dataMode (by exact hd.1)]
      exact hstep
  · rename_i hd
    have htakes := fillFrom_takes t.ctrlTxRing accept
    have hnone := fillFrom_of_none t.ctrlTxRing accept
    generalize fillFrom t.ctrlTxRing accept = r at htakes hnone ⊢
    obtain ⟨available, sent, ring⟩ := r
    have hstep : Bridge.Step (t.bridge 0) ((t.bridge 0).fillCtrl sent ring now) :=
      .fillCtrl sent ring now htakes fun hm hs => hd ⟨hm, hs⟩
    dsimp only at hnone ⊢
    unfold Bridge.fillCtrl at hstep
    split
    · rename_i hstop
      have hsent : sent = [] := hstop.elim hnone id
      rw [if_pos hsent] at hstep
      exact hstep
    · rename_i hgo
      rw [if_neg fun hsent => hgo (Or.inr hsent)] at hstep
      rw [activate_bridge]
      exact hstep

section
variable (env : Env)

theorem steps_controlUartIsrRx (f : Firmware) (data : List RxByte) :
    ReflTransGen Bridge.Step (f.app.bridge 0) ((controlUartIsrRx env f data).app.bridge 0) := by
  simp only [controlUartIsrRx]
  split
  · rename_i h
    exact ReflTransGen.single (.pause h.1 h.2)
  · split
    · exact ReflTransGen.refl
    · split
      · rename_i hm
        exact (sim_handleDataModeRx hm _).steps
      · rename_i hm
        generalize (data.take CONTROL_UART_RX_CHUNK).map RxByte.ch = bytes
        have hrx : Bridge.Step (f.app.bridge 0) ((f.app.note (.atRx bytes)).bridge 0) := .atRx bytes hm
        have hat : Acts env anyReport (f.app.note (.atRx bytes))
            (AtHost.atHostRxBytes (atOps env) atTx ⟨f.host, f.app.note (.atRx bytes), f.trace⟩ bytes).ctx :=
          acts_atHostRxBytes env ⟨f.host, f.app.note (.atRx bytes), f.trace⟩ hm bytes
        exact ReflTransGen.head hrx hat.sim.steps

theorem steps_controlUartIsrTx (f : Firmware) (tx : Option (Int × Int)) :
    ReflTransGen Bridge.Step (f.app.bridge 0) ((controlUartIsrTx f tx).app.bridge 0) := by
  unfold controlUartIsrTx
  cases tx with
  | none => exact ReflTransGen.refl
  | some p =>
      dsimp only
      split
      · exact steps_serviceUartTx f.app p.1 p.2
      · exact ReflTransGen.refl

theorem steps_controlUartIsr (f : Firmware) (tx : Option (Int × Int)) (rx : Option (List RxByte)) :
    ReflTransGen Bridge.Step (f.app.bridge 0) ((controlUartIsr env f tx rx).app.bridge 0) := by
  refine (steps_controlUartIsrTx f tx).trans ?_
  simp only [controlUartIsr]
  cases rx with
  | none => exact ReflTransGen.refl
  | some data =>
      dsimp only
      split
      · exact steps_controlUartIsrRx env _ data
      · exact ReflTransGen.refl

/-! ## Every step of the firmware -/

theorem linkHeld_of_linked (hl : Bridge.Linked (s.bridge 0)) : LinkHeld s where
  creating h := ⟨hl.creating h, hl.not_dataMode_of_creating h⟩
  up h := hl.up h
  escape h := hl.dataMode_of_active h

/-- A work item that runs only while it is pending. -/
theorem sim_ifPending {c : Bool} {t : App} (h : Sim s t) : Sim s (if c then t else s) :=
  Sim.ite (fun _ => h) fun _ => Sim.refl s

theorem acts_any (hl : Bridge.Linked (s.bridge 0)) {e : Event} (he : ¬e.IsStream) :
    Acts env anyReport s (stepApp env s e) :=
  acts_stepApp env (linkHeld_of_linked hl) he fun _ _ => trivial

theorem sim_stepApp (hl : Bridge.Linked (s.bridge 0)) (e : Event) : Sim s (stepApp env s e) := by
  cases e with
  | bleWriteWork => exact sim_ifPending (Sim.congr_left (sim_bleWriteLoop env _ _) rfl)
  | bleWriteRetryWork => exact sim_ifPending (Sim.of_eq rfl)
  | bleWriteCoalesceWork => exact sim_ifPending (Sim.of_eq rfl)
  | escapeGuardWork now => exact Sim.ite (fun hp => sim_escapeGuardWorkHandler hp now) fun _ => Sim.refl s
  | _ => exact (acts_any env hl id).sim

theorem step_refines (f : Firmware) (hl : Bridge.Linked (f.app.bridge 0)) (e : Event) :
    ReflTransGen Bridge.Step (f.app.bridge 0) ((step env f e).app.bridge 0) := by
  cases e with
  | uart tx rx => exact steps_controlUartIsr env f tx rx
  | _ => exact (sim_stepApp env hl _).steps

/-- Every reachable state of the firmware shows a reachable state of the bridge. -/
theorem Reachable.bridge {f : Firmware} (h : Reachable env f) : Bridge.Reachable (f.app.bridge 0) := by
  obtain ⟨config, started, dtr, es, rfl⟩ := h
  refine ⟨config.streamGuardTimeMs, started, ?_⟩
  have hstep : ∀ (f : Firmware) (e : Event),
      ReflTransGen Bridge.Step (Bridge.start config.streamGuardTimeMs started) (f.app.bridge 0) →
        ReflTransGen Bridge.Step (f.app.bridge 0) ((step env f e).app.bridge 0) :=
    fun f e hf => step_refines env f ((Bridge.linked_start _ _).steps hf) e
  exact Runs.run_simulates (a := Bridge.start config.streamGuardTimeMs started) hstep ReflTransGen.refl es

end

end BleAtHost.Main
