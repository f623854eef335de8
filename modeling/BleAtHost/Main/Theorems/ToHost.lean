import BleAtHost.Bridge.Lemmas.Output
import BleAtHost.Main.Lemmas.Refinement

/-!
# Output to the host

What the terminal sees of a session, and where its bytes go around the line that announces it.
-/

namespace BleAtHost.Main

/-! ## Transparency -/

/-- Since data mode was entered, what `uart_fifo_fill` accepted and what waits for it are the notifications. -/
def TransparentToHost (s : App) : Prop :=
  collect Obs.filled (session s.log) ++ s.ctrlTxRing.data ++ s.bleToHostRing.data =
    collect Obs.notified (session s.log)

/-- The output is transparent as long as no callback queues a line. -/
theorem transparent_to_host (env : Env) {f : Firmware} (h : Reachable env f) (hm : f.app.appState = .dataMode)
    (hc : NoCallback f.app.log) (ho : NoOverflow f.app.log) : TransparentToHost f.app :=
  (h.bridge env).transparent.stream hm hc ho

theorem transparent_to_host_notifications :
    TransparentToHost (runDataMode (stackRefusing [])
      [.notify (some (ascii "abc")), .uart (some (2, 4000)) none, .notify (some (ascii "de"))]).app := by
  generalize hf : runDataMode _ _ = f
  obtain ⟨hm, hc, ho⟩ : f.app.appState = .dataMode ∧ NoCallback f.app.log ∧ NoOverflow f.app.log := by
    rw [← hf]
    unfold NoCallback NoOverflow
    decide
  exact transparent_to_host (stackRefusing []) (hf ▸ reachable_runDataMode _ _) hm hc ho

/-- A change of the link parameters becomes a line in the middle of the data. -/
theorem link_params_break_in :
    let f := runDataMode (stackRefusing [])
      [.notify (some (ascii "abc")), .uart (some (2, 4000)) none, .leParamUpdated 6 0 400, transmit 4001, transmit 4002]
    Reachable (stackRefusing []) f ∧ f.app.appState = .dataMode ∧ NoOverflow f.app.log ∧
      collect Obs.filled (session f.app.log) = ascii "ab+IND=LINKPARA,0,6,0,400\r\nc" ∧
      collect Obs.notified (session f.app.log) = ascii "abc" ∧ ¬TransparentToHost f.app := by
  refine ⟨reachable_runDataMode _ _, ?_⟩
  unfold NoOverflow TransparentToHost
  decide +kernel

/-! ## The way into data mode -/

/-- After the line `+IND=DATAMODE,1` was shown no byte goes to the parser until data mode is left. -/
def HandedOver (s : App) : Prop :=
  (∀ bytes before, .atRx bytes :: before <:+ s.log → handover before ≠ .shown) ∧
    (handover s.log = .shown → s.appState = .dataMode)

theorem handed_over (env : Env) {f : Firmware} (h : Reachable env f) (hu : Uninterrupted f.app.log) :
    HandedOver f.app := by
  have hhanding := (h.bridge env).handing hu
  refine ⟨fun bytes before hx => ?_, fun hshown => ?_⟩
  · exact past_of_suffix hhanding.past hx
  · have hstage := hhanding.stage
    rw [show handover (f.app.bridge 0).log = .shown from hshown] at hstage
    exact hstage

theorem handed_over_host_bytes :
    HandedOver (runDataMode (stackRefusing []) [.leParamUpdated 6 0 400, hostSends "x" 4000]).app := by
  refine handed_over (stackRefusing []) (reachable_runDataMode _ _) ?_
  unfold Uninterrupted
  decide

/-- A line is queued behind `+IND=DATAMODE,1`, and the transmitter stops between the two: the next byte of the host
is a command byte. -/
def lateHandover : List Event :=
  [hostSends "AT+ENTERDATAMODE=0\r\n" 3000, .leParamUpdated 6 0 400, .uart (some (53, 3000)) none, hostSends "x" 4000]

theorem line_behind_delays_handover :
    Reachable (stackRefusing []) (runReady (stackRefusing []) lateHandover) ∧
      ¬HandedOver (runReady (stackRefusing []) lateHandover).app := by
  refine ⟨reachable_runReady _ _, fun h => ?_⟩
  obtain ⟨hpast, _⟩ := h
  obtain ⟨hlog, hshown⟩ : (runReady (stackRefusing []) lateHandover).app.log =
        .atRx (ascii "x") :: (runReady (stackRefusing []) lateHandover).app.log.drop 1 ∧
      handover ((runReady (stackRefusing []) lateHandover).app.log.drop 1) = .shown := by decide +kernel
  generalize (runReady (stackRefusing []) lateHandover).app.log = log at hlog hshown hpast
  refine hpast (ascii "x") (log.drop 1) ?_ hshown
  rw [← hlog]

end BleAtHost.Main
