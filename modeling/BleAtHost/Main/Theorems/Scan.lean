import BleAtHost.Main.Lemmas.Control

/-!
# Scanning

A scan ends by its timer, or a connection stops it.
-/

namespace BleAtHost.Main

variable {s s' : App} {env : Env}

/-- A scan has its stop armed. -/
def ScanArmed (s : App) : Prop := s.appState = .scanning → s.scanStopWork.isSome

/-- The radio did not refuse to stop. -/
def Obs.scanStops : Obs → Bool
  | .stack .scanStop r => r == 0 || r == -EALREADY
  | _ => true

def ScanStops (log : List Obs) : Prop := ∀ o ∈ log, o.scanStops

theorem ScanStops.of_suffix {log log' : List Obs} (h : ScanStops log') (hs : log <:+ log') : ScanStops log :=
  fun o ho => h o (hs.subset ho)

theorem ScanArmed.of_same (h : ScanArmed s) (hm : s'.appState = s.appState) (ht : s'.scanStopWork = s.scanStopWork) :
    ScanArmed s' := by
  intro hs
  rw [ht]
  exact h (hm ▸ hs)

theorem ScanArmed.of_other (hm : s'.appState ≠ .scanning) : ScanArmed s' := fun hs => absurd hs hm

theorem ScanArmed.announceReady (h : ScanArmed s) : ScanArmed (announceReady s) := by
  rcases announceReady_cases s with ⟨he, _⟩ | ⟨he, _⟩
  · rw [he]; exact .of_other (by simp)
  · rw [he]; exact h.of_same rfl rfl

theorem ScanArmed.control (h : ScanArmed s) (hc : Control env anyReport s s') (hstops : ScanStops s'.log) :
    ScanArmed s' := by
  cases hc with
  | aside ha => exact h.of_same ha.appState ha.scanStopWork
  | readyFound => exact h.announceReady
  | subscribed => exact h.announceReady
  | errorState => exact .of_other (by simp [setState])
  | disconnecting => exact .of_other (by simp [App.ask, setState])
  | entered => exact .of_other (by simp [enterDataModeNow])
  | left => exact .of_other (restState_ne_scanning s)
  | scanning durationS =>
      intro _
      cases ht : s.scanStopWork with
      | none => simp
      | some t => simp
  | scanTimer hm => exact .of_other hm
  | scanStopped => exact .of_other (restState_ne_scanning s)
  | scanStuck hm hr =>
      have hstop : (Obs.stack .scanStop (env.answer s.calls)).scanStops := hstops _ List.mem_cons_self
      exact absurd (by simpa [Obs.scanStops] using hstop) hr
  | create peer =>
      simp only [createConnection]
      split
      · exact h.of_same rfl rfl
      · exact .of_other (by simp [setState])
  | connectFailed => exact .of_other (by simp)
  | opened => exact .of_other (by simp)
  | closed conn reason hl hcur hpc => exact .of_other (by rw [(closedFrom hcur hpc reason).appState]; simp)
  | _ => exact h.of_same rfl rfl

/-- A scan has its stop armed as long as the radio never refuses to stop. -/
theorem scan_armed (env : Env) {f : Firmware} (h : Reachable env f) (hstops : ScanStops f.app.log) :
    ScanArmed f.app := by
  refine Reachable.control (P := fun s => ScanStops s.log → ScanArmed s) ?_ ?_ h hstops
  · intro config started dtr _
    exact .of_other (by simp [boot])
  · intro s s' hc hs hstops'
    exact (hs (hstops'.of_suffix hc.log_suffix)).control hc hstops'

/-- Two scans, the first stopped by its timer. -/
theorem scan_armed_second :
    ScanArmed (Runs.run (step (stackRefusing [])) (boot sampleConfig 0 true)
      [hostSends "AT+STARTSCAN=5\r\n" 0, .scanStopWork, hostSends "AT+STARTSCAN=7\r\n" 6000]).app := by
  refine scan_armed (stackRefusing []) ⟨sampleConfig, 0, true, _, rfl⟩ ?_
  unfold ScanStops
  decide

/-- The radio refuses to stop when the timer fires: the scan goes on without a timer. -/
theorem refused_stop_leaves_scan_unarmed :
    let f := Runs.run (step (stackRefusing [1])) (boot sampleConfig 0 true)
      [hostSends "AT+STARTSCAN=5\r\n" 0, .scanStopWork]
    Reachable (stackRefusing [1]) f ∧ ¬ScanArmed f.app := by
  refine ⟨⟨sampleConfig, 0, true, _, rfl⟩, ?_⟩
  unfold ScanArmed
  decide

end BleAtHost.Main
