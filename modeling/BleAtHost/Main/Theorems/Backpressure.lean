import BleAtHost.Main.Lemmas.Filling

/-!
# Back-pressure towards the host

The receiver is stopped while `host_to_ble_ring` has no room for a chunk.
-/

namespace BleAtHost.Main

/-! ## The receiver and its flag -/

/-- The interrupt is off exactly while `control_rx_paused` is set, and only in data mode with a full ring. -/
def FlowControlled (s : App) : Prop :=
  (s.rxIrqEnabled = false ↔ s.controlRxPaused = true) ∧
    (s.rxIrqEnabled = false → s.appState = .dataMode ∧ s.hostToBleRing.spaceGet < CONTROL_UART_RX_CHUNK)

/-- Flow control is right as long as no session is cleared while the receiver is stopped. -/
theorem flow_controlled (env : Env) {f : Firmware} (h : Reachable env f) (hc : ClearedRunning f.app.log) :
    FlowControlled f.app := by
  have hm := (h.bridge env).mirrored hc
  have hirq : f.app.rxIrqEnabled = !f.app.controlRxPaused := hm.irq
  have hiff : f.app.rxIrqEnabled = false ↔ f.app.controlRxPaused = true := by rw [hirq, Bool.not_eq_false']
  exact ⟨hiff, fun hoff => hm.low (hiff.mp hoff)⟩

theorem flow_controlled_after_escape :
    FlowControlled (runDataMode (stackRefusing [])
      [hostSends "ab" 4000, hostSends "+++" 6000, .escapeGuardWork 7000, .disconnected 8]).app := by
  refine flow_controlled (stackRefusing []) (reachable_runDataMode _ _) ?_
  unfold ClearedRunning
  decide +kernel

/-- The end of a connection clears the flag and leaves the interrupt as it is. -/
theorem disconnected_flags (env : Env) {s : App} {conn : Conn} (hc : s.currentConn = some conn)
    (hpc : s.pm.conn = some conn) (reason : Nat) :
    (disconnected env s conn reason).controlRxPaused = false ∧
      (disconnected env s conn reason).rxIrqEnabled = s.rxIrqEnabled := by
  have he : disconnected env s conn reason =
      refreshUartRxFlowControl (atHostNotifyDisconnected (closeConnection env s conn reason)) := rfl
  have ht := closeConnection_bridge env hc hpc reason
  generalize closeConnection env s conn reason = t at he ht
  have htext : ascii "+IND=BLMD,0" ≠ [] := by decide
  have hline := queueCtrlLine_bridge (s := t) htext
  rw [ht] at hline
  have hmode : (atHostNotifyDisconnected t).appState = .idle := congrArg Bridge.mode hline
  have hpaused : (atHostNotifyDisconnected t).controlRxPaused = false := congrArg Bridge.paused hline
  have hirq : (atHostNotifyDisconnected t).rxIrqEnabled = s.rxIrqEnabled := congrArg Bridge.rxIrq hline
  rw [he]
  simp [refreshUartRxFlowControl, hmode, hpaused, hirq]

/-- A full ring stops the receiver, then the peer goes away: the port stays deaf. -/
theorem deaf_of_filled (env : Env) {f : Firmware} (hl : Bridge.Linked (f.app.bridge 0))
    (hfull : (f.app.bridge 0).Filled (256 * CONTROL_UART_RX_CHUNK) 3000) (reason : Nat) :
    ¬FlowControlled (step env f (.disconnected reason)).app := by
  intro h
  obtain ⟨conn, hup⟩ := hfull.up
  have hup : f.app.link = .up conn := hup
  obtain ⟨hc, hpc⟩ := hl.up hup
  have hc : f.app.currentConn = some conn := hc
  have hpc : f.app.pm.conn = some conn := hpc
  have hoff : f.app.rxIrqEnabled = false := hfull.irq.trans (congrArg not hfull.paused)
  obtain ⟨hpaused, hirq⟩ := disconnected_flags env hc hpc reason
  have hstep : (step env f (.disconnected reason)).app = disconnected env f.app conn reason := by
    simp [step, stepApp, hup]
  rw [hstep] at h
  rw [h.1.mp (hirq.trans hoff)] at hpaused
  cases hpaused

theorem disconnect_leaves_port_deaf :
    Reachable (stackRefusing []) (runDataMode (stackRefusing []) (fillUp 256 ++ [.disconnected 8])) ∧
      ¬FlowControlled (runDataMode (stackRefusing []) (fillUp 256 ++ [.disconnected 8])).app := by
  refine ⟨reachable_runDataMode _ _, ?_⟩
  have hfull := filled_fillUp 256 (Nat.le_refl _)
  have hlinked := ((reachable_runDataMode (stackRefusing []) (fillUp 256)).bridge _).linked
  rw [runDataMode_append, Runs.run_cons, Runs.run_nil]
  exact deaf_of_filled (stackRefusing []) hlinked hfull 8

/-! ## Room for every byte -/

/-- Every put into `host_to_ble_ring` stores all it is given. -/
def NothingDropped (log : List Obs) : Prop := ∀ offered stored, .h2bPut offered stored ∈ log → stored = offered

/-- Nothing is dropped as long as every chunk is read with room for the pluses held back, too. -/
theorem nothing_dropped (env : Env) {f : Firmware} (h : Reachable env f) (hr : ReadWithRoom f.app.log) :
    NothingDropped f.app.log := fun _ _ hm => ((h.bridge env).roomy hr).stored hm

theorem nothing_dropped_held_plus :
    NothingDropped (runDataMode (stackRefusing [])
      [hostSends "ab+" 4000, hostSends "+" 5000, hostSends "+c" 5001, hostSends "+" 6001, .escapeGuardWork 7001]).app.log := by
  refine nothing_dropped (stackRefusing []) (reachable_runDataMode _ _) ?_
  unfold ReadWithRoom
  decide +kernel

/-- The ring has room for one chunk, a plus is held back, and a chunk is read. -/
def plusThenChunk : List Event := fillUp 255 ++ [hostSendsPlus 5000, hostSendsChunk 5001]

theorem held_plus_drops_byte :
    Reachable (stackRefusing []) (runDataMode (stackRefusing []) plusThenChunk) ∧
      ¬NothingDropped (runDataMode (stackRefusing []) plusThenChunk).app.log := by
  refine ⟨reachable_runDataMode _ _, fun h => ?_⟩
  have hfull := filled_fillUp 255 (by decide)
  rw [plusThenChunk, runDataMode_append, Runs.run_cons, Runs.run_cons, Runs.run_nil] at h
  generalize runDataMode (stackRefusing []) (fillUp 255) = f at h hfull
  have hpause : 1000 ≤ Detector.elapsed 5000 3000 := by decide
  have hheld := oneHeld_plus (stackRefusing []) hfull (by decide) hpause
  have hnil := h _ _ (offered_in_vain (stackRefusing []) hheld (by decide) 5001)
  cases hnil

end BleAtHost.Main
