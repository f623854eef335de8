import BleAtHost.Bridge.Lemmas.Escape
import BleAtHost.Main.Lemmas.Refinement

/-!
# The escape sequence

No false escape, no missed escape, and no payload lost to the detection. Every reading of the clock is a reading of
`k_uptime_get`; two of them may differ although nothing lies between them in the source.
-/

namespace BleAtHost.Main

/-! ## No false escape -/

/-- The host bytes end in three pluses, with a guard time before the first and after the third. -/
def EndsInEscape (guardTime : Nat) (start now : Int) : List (Byte × Int) → Prop
  | (ch3, t3) :: (ch2, _) :: (ch1, t1) :: earlier =>
      ch1 = PLUS ∧ ch2 = PLUS ∧ ch3 = PLUS ∧
        (guardTime : Int) ≤ t1 - Detector.lastArrival start earlier ∧ (guardTime : Int) ≤ now - t3
  | _ => False

/-- Every escape exit comes after an escape sequence of its session. -/
def EscapesGuarded (guardTime : Nat) (log : List Obs) : Prop :=
  ∀ now left before, .exit now left :: before <:+ log →
    EndsInEscape guardTime (sessionStart before) now (hostBytes (session before))

theorem endsInEscape_of_guarded {guardTime : Nat} {start now last : Int} {bytes : List (Byte × Int)}
    (h : Detector.Guarded (Bridge.escapeConfig guardTime) start bytes 3 last) (hn : (guardTime : Int) ≤ now - last) :
    EndsInEscape guardTime start now bytes := by
  obtain ⟨ts, first, earlier, hlen, rfl, hlast, hg⟩ := h
  obtain ⟨t3, t2, rfl⟩ : ∃ t3 t2, ts = [t3, t2] := by
    rcases ts with _ | ⟨t3, _ | ⟨t2, _ | ⟨t1, ts⟩⟩⟩
    · simp at hlen
    · simp at hlen
    · exact ⟨t3, t2, rfl⟩
    · simp at hlen
  have hlast : t3 = last := hlast
  exact ⟨rfl, rfl, rfl, hg, by rw [hlast]; exact hn⟩

/-- With a clock that never goes back, no exit is false unless the clock ticks while a fourth plus pushes three
out: their flush is then later than the plus itself, and the difference wraps. -/
theorem escapes_guarded (env : Env) {f : Firmware} (h : Reachable env f) (hc : ClockForward f.app.log)
    (hs : SteadyFlush f.app.log) : EscapesGuarded f.app.config.streamGuardTimeMs f.app.log := by
  intro now left before hx
  have hescaping := (h.bridge env).escaping
  obtain ⟨last, hexit⟩ : ∃ last, Bridge.Exited f.app.config.streamGuardTimeMs now before last :=
    past_of_suffix hescaping.past hx
  have hbefore : before <:+ f.app.log := (List.suffix_cons _ _).trans hx
  obtain ⟨hguarded, hwait⟩ := hexit.guarded (Past.of_suffix hescaping.past hbefore) (hc.of_suffix hbefore)
    fun o hm => hs o (hbefore.subset hm)
  exact endsInEscape_of_guarded hguarded hwait

def escape : List Event := [hostSends "+++" 5000, .escapeGuardWork 6000]

theorem escapes_guarded_escape :
    EscapesGuarded 1000 (runDataMode (stackRefusing []) escape).app.log := by
  obtain ⟨hguard, hclock, hflush⟩ : (runDataMode (stackRefusing []) escape).app.config.streamGuardTimeMs = 1000 ∧
      ClockForward (runDataMode (stackRefusing []) escape).app.log ∧
      SteadyFlush (runDataMode (stackRefusing []) escape).app.log := by
    unfold ClockForward SteadyFlush
    decide
  have hguarded := escapes_guarded (stackRefusing []) (reachable_runDataMode _ _) hclock hflush
  rw [hguard] at hguarded
  exact hguarded

/-- Six pluses; the clock ticks between the two readings that the fourth makes. -/
def tickingEscape : List Event :=
  [hostSends "+++" 5000, .uart none (some [⟨PLUS, 5500, 5501⟩]), hostSends "++" 5600, .escapeGuardWork 6600]

/-- The last three pluses follow the third after 500 ms. -/
theorem tick_makes_false_escape :
    Reachable (stackRefusing []) (runDataMode (stackRefusing []) tickingEscape) ∧
      ClockForward (runDataMode (stackRefusing []) tickingEscape).app.log ∧
      ¬EscapesGuarded 1000 (runDataMode (stackRefusing []) tickingEscape).app.log := by
  obtain ⟨hclock, hdrop, hbytes⟩ : ClockForward (runDataMode (stackRefusing []) tickingEscape).app.log ∧
      (runDataMode (stackRefusing []) tickingEscape).app.log.drop 4 =
        .exit 6600 (ascii "+++") :: (runDataMode (stackRefusing []) tickingEscape).app.log.drop 5 ∧
      hostBytes (session ((runDataMode (stackRefusing []) tickingEscape).app.log.drop 5)) =
        [(PLUS, 5600), (PLUS, 5600), (PLUS, 5500), (PLUS, 5000), (PLUS, 5000), (PLUS, 5000)] := by
    unfold ClockForward
    decide +kernel
  refine ⟨reachable_runDataMode _ _, hclock, fun h => ?_⟩
  generalize (runDataMode (stackRefusing []) tickingEscape).app.log = log at h hdrop hbytes
  have hguarded := h 6600 (ascii "+++") (log.drop 5) (hdrop ▸ List.drop_suffix 4 log)
  rw [hbytes] at hguarded
  obtain ⟨_, _, _, hpause, _⟩ := hguarded
  simp only [Detector.lastArrival] at hpause
  omega

/-! ## Nothing lost -/

/-- The bytes received in the session are the bytes put, then the pluses held back; at an exit these are three. -/
def PayloadConserved (s : App) : Prop :=
  (s.appState = .dataMode → PutWhole (session s.log) →
    received (session s.log) = collect Obs.stored (session s.log) ++ List.replicate s.escapeState.held PLUS ∧
      (s.escapeState.active → 0 < s.escapeState.count ∧ s.escapeState.count ≤ 3)) ∧
  ∀ now left before, .exit now left :: before <:+ s.log → PutWhole (session before) →
    received (session before) = collect Obs.stored (session before) ++ [PLUS, PLUS, PLUS]

theorem received_of_follows {guardTime : Nat} {d : Detector.State} {log : List Obs}
    (h : Bridge.Follows guardTime d log) (hw : PutWhole (session log)) :
    received (session log) = collect Obs.stored (session log) ++ List.replicate d.held PLUS := by
  have hstate : Detector.replay (Bridge.escapeConfig guardTime) (sessionStart log) (history (session log)) = d :=
    h.state
  have hall := Detector.received_eq (Bridge.escapeConfig guardTime) (sessionStart log) (history (session log))
  rw [received_history, hstate, ← h.offered] at hall
  rw [collect_stored hw]
  exact hall

theorem payload_conserved (env : Env) {f : Firmware} (h : Reachable env f) : PayloadConserved f.app := by
  have hescaping := (h.bridge env).escaping
  refine ⟨fun hm hw => ?_, fun now left before hx hw => ?_⟩
  · have hfollows := (hescaping.watching hm).follows
    exact ⟨received_of_follows hfollows hw, hescaping.counted⟩
  · obtain ⟨last, hexit⟩ : ∃ last, Bridge.Exited f.app.config.streamGuardTimeMs now before last :=
      past_of_suffix hescaping.past hx
    exact received_of_follows hexit.follows hw

theorem payload_conserved_escape : PayloadConserved (runDataMode (stackRefusing []) escape).app :=
  payload_conserved (stackRefusing []) (reachable_runDataMode _ _)

/-! ## No missed escape -/

/-- `+IND=DATAMODE,0` with its line end. -/
def exitLine : List Byte := dataModeLine false ++ newline

/-- Data mode is left, `+IND=DATAMODE,0` is queued, and nothing is put for the peer. -/
structure EscapeExit (s s' : App) : Prop where
  mode : s'.appState ≠ .dataMode
  line : s'.ctrlTxRing.data = s.ctrlTxRing.data ++ exitLine
  ring : s'.hostToBleRing = s.hostToBleRing

theorem EscapeExit.congr {s t : App} (hc : s.ctrlTxRing = t.ctrlTxRing) (hr : s.hostToBleRing = t.hostToBleRing)
    (s' : App) : EscapeExit s s' ↔ EscapeExit t s' := by
  constructor
  · intro h
    exact ⟨h.mode, hc ▸ h.line, hr ▸ h.ring⟩
  · intro h
    exact ⟨h.mode, hc ▸ h.line, hr ▸ h.ring⟩

theorem exitDataMode_bridge (s : App) :
    ∃ whole paused rxIrq, (exitDataMode s).bridge 0 =
      { ((((s.bridge 0).clear s.restState).putCtrl (dataModeLine false)).putCtrl newline).note
          (.ctrlLine (dataModeLine false) whole) with paused := paused, rxIrq := rxIrq } := by
  have hline : dataModeLine false ≠ [] := by decide
  have hclear : (clearDataModeSession s true).bridge 0 = (s.bridge 0).clear s.restState := rfl
  obtain ⟨paused, rxIrq, he⟩ := Bridge.refresh_eq
    ((kickUartTx (atHostNotifyDataMode (clearDataModeSession s true) false)).bridge 0)
  refine ⟨decide ((dataModeLine false).length + newline.length ≤ s.ctrlTxRing.spaceGet), paused, rxIrq, ?_⟩
  rw [exitDataMode, refresh_bridge, he, kickUartTx_bridge, atHostNotifyDataMode, queueCtrlLine_bridge hline, hclear]
  rfl

/-- Of the line as much is queued as the ring has room for. -/
theorem exitDataMode_cases (s : App) :
    (exitDataMode s).appState ≠ .dataMode ∧ (exitDataMode s).hostToBleRing = s.hostToBleRing ∧
      (exitDataMode s).ctrlTxRing.data = s.ctrlTxRing.data ++ exitLine.take s.ctrlTxRing.spaceGet := by
  obtain ⟨whole, paused, rxIrq, he⟩ := exitDataMode_bridge s
  have hmode : (exitDataMode s).appState = s.restState := congrArg Bridge.mode he
  have hring : (exitDataMode s).hostToBleRing = s.hostToBleRing := congrArg Bridge.toBle he
  have hctrl : (exitDataMode s).ctrlTxRing = ((s.ctrlTxRing.put (dataModeLine false)).2.put newline).2 :=
    congrArg Bridge.ctrl he
  refine ⟨by rw [hmode]; exact restState_ne_dataMode s, hring, ?_⟩
  rw [hctrl, RingBuf.put_data, RingBuf.put_spaceGet, RingBuf.put_data, List.append_assoc, exitLine, List.take_append]

theorem escapeExit_exitDataMode_iff (s : App) :
    EscapeExit s (exitDataMode s) ↔ exitLine.length ≤ s.ctrlTxRing.spaceGet := by
  obtain ⟨hmode, hring, hline⟩ := exitDataMode_cases s
  constructor
  · intro h
    have hwhole : exitLine.take s.ctrlTxRing.spaceGet = exitLine := List.append_cancel_left (hline.symm.trans h.line)
    exact (List.take_eq_self_iff _).mp hwhole
  · intro hroom
    rw [List.take_of_length_le hroom] at hline
    exact ⟨hmode, hline, hring⟩

/-- The handler leaves data mode once the guard time is over after the third plus. -/
theorem escapeGuardWorkHandler_full {s : App} {t3 now : Int} (ha : s.escapeState.active) (hn : s.escapeState.count = 3)
    (hlast : s.lastHostRxTimeMs = t3) (hg : (s.config.streamGuardTimeMs : Int) ≤ now - t3)
    (hnow : now - t3 < 2 ^ 64) : EscapeExit s (escapeGuardWorkHandler s now) ↔ exitLine.length ≤ s.ctrlTxRing.spaceGet := by
  have helapsed : ¬Detector.elapsed now t3 < s.config.streamGuardTimeMs := by
    rw [Detector.elapsed, Int.emod_eq_of_lt (by omega) hnow]
    omega
  subst hlast
  have hna : ¬(!s.escapeState.active) = true := by simp [ha]
  have hhandler : escapeGuardWorkHandler s now =
      exitDataMode ((s.note (.uptime now)).note (.exit now s.hostToBleRing.data)) := by
    simp only [escapeGuardWorkHandler, if_neg hna, if_pos hn]
    exact if_neg helapsed
  have hsame := EscapeExit.congr (s := s) (t := (s.note (.uptime now)).note (.exit now s.hostToBleRing.data)) rfl rfl
  rw [hhandler]
  exact (hsame _).trans (escapeExit_exitDataMode_iff _)

/-- What the detector sees of a first plus and two more, with nothing but waiting timers after them. -/
structure ThreePluses (newer : List Obs) (first : RxByte) (second third : Int × Int) (waits : List Int) : Prop where
  first : first.ch = PLUS
  later : history newer = waits.map .fire ++ [.rx PLUS third.1 third.2, .rx PLUS second.1 second.2]

theorem ThreePluses.history {newer : List Obs} {first : RxByte} {second third : Int × Int} {waits : List Int}
    (h : ThreePluses newer first second third waits) (before : List Obs) (guardTime held : Nat) (last : Int) :
    Main.history (newer ++ .rx first held last :: before) =
      waits.map .fire ++ (Detector.escapes (Bridge.escapeConfig guardTime) [third, second] ++
        .rx (Bridge.escapeConfig guardTime).esc first.now first.flushNow :: Main.history before) := by
  rw [history_append, h.later, Main.history, h.first]
  simp [Detector.escapes, Bridge.escapeConfig]

theorem escapeState_of_held {e : DataModeEscapeState} (h : e.held = 3) : e.active ∧ e.count = 3 := by
  unfold DataModeEscapeState.held at h
  split at h
  · exact ⟨‹_›, h⟩
  · cases h

/-- A late run of the handler while three pluses are held. -/
theorem escapeExit_step_iff {env : Env} {f : Firmware} (h : Reachable env f) (hheld : f.app.escapeState.held = 3)
    {t3 now : Int} (hlast : f.app.lastHostRxTimeMs = t3) (hg : (f.app.config.streamGuardTimeMs : Int) ≤ now - t3)
    (hnow : now - t3 < 2 ^ 64) :
    EscapeExit f.app (step env f (.escapeGuardWork now)).app ↔ exitLine.length ≤ f.app.ctrlTxRing.spaceGet := by
  obtain ⟨ha, hn⟩ := escapeState_of_held hheld
  have harmed : f.app.escapeGuardWork.isSome := (h.bridge env).armed ha
  have hstep : (step env f (.escapeGuardWork now)).app =
      escapeGuardWorkHandler { f.app with escapeGuardWork := none } now := by
    simp only [step, stepApp, if_pos harmed]
  have hsame := EscapeExit.congr (s := f.app) (t := { f.app with escapeGuardWork := none }) rfl rfl
  rw [hstep]
  exact (hsame _).trans (escapeGuardWorkHandler_full ha hn hlast hg hnow)

/-- Three pluses are all held back, and the next late run of the handler leaves data mode and queues its line, exactly
if the first of them found no candidate and a guard time since `last_host_rx_time_ms`, and the line has room. A timer
that flushes a shorter candidate sets that time too, although no byte is received then. -/
theorem escape_not_missed (env : Env) {f : Firmware} (h : Reachable env f) (hm : f.app.appState = .dataMode)
    {newer before : List Obs} {first : RxByte} {held : Nat} {last : Int} {second third : Int × Int} {waits : List Int}
    (hlog : session f.app.log = newer ++ .rx first held last :: before)
    (hp : ThreePluses newer first second third waits) :
    (collect Obs.offered newer = [] ∧
      ∀ now, (f.app.config.streamGuardTimeMs : Int) ≤ now - third.1 → now - third.1 < 2 ^ 64 →
        EscapeExit f.app (step env f (.escapeGuardWork now)).app) ↔
    held = 0 ∧ f.app.config.streamGuardTimeMs ≤ Detector.elapsed first.now last ∧
      exitLine.length ≤ f.app.ctrlTxRing.spaceGet := by
  have hb := h.bridge env
  obtain ⟨hstate, hoffered⟩ : Bridge.Follows f.app.config.streamGuardTimeMs
      ⟨f.app.escapeState.held, f.app.lastHostRxTimeMs⟩ f.app.log := (hb.escaping.watching hm).follows
  obtain ⟨older, hall, rfl, hstart⟩ := session_split hlog
  have hsuffix : .rx first held last :: older <:+ f.app.log := by
    rw [hall]
    exact List.suffix_append newer _
  obtain ⟨hstate', hoffered'⟩ : Bridge.Follows f.app.config.streamGuardTimeMs ⟨held, last⟩ older :=
    past_of_suffix hb.escaping.past hsuffix
  have hhistory := hp.history (session older) f.app.config.streamGuardTimeMs held last
  -- what is offered since the first plus is what the detector releases beyond the history before it
  have hready : Detector.Ready (Bridge.escapeConfig f.app.config.streamGuardTimeMs) ⟨held, last⟩ first.now ↔
      held = 0 ∧ f.app.config.streamGuardTimeMs ≤ Detector.elapsed first.now last := Iff.rfl
  have hiff := Detector.released_waits_iff (c := Bridge.escapeConfig f.app.config.streamGuardTimeMs)
    (sessionStart f.app.log) (history (session older)) [third, second] (first.now, first.flushNow) waits rfl
  have hnewer : collect Obs.offered newer = [] ↔ collect Obs.offered (session f.app.log) =
      collect Obs.offered (session older) := by
    simp [hlog, collect_append, Obs.offered]
  rw [Bridge.replayed, hstart] at hstate'
  rw [hoffered', hoffered, hstart, hlog, hhistory, hiff, hstate', hready] at hnewer
  -- a detector that holds all three leaves the rest to the handler and to the room for its line
  have hlate : held = 0 ∧ f.app.config.streamGuardTimeMs ≤ Detector.elapsed first.now last →
      ∀ now, (f.app.config.streamGuardTimeMs : Int) ≤ now - third.1 → now - third.1 < 2 ^ 64 →
        (EscapeExit f.app (step env f (.escapeGuardWork now)).app ↔ exitLine.length ≤ f.app.ctrlTxRing.spaceGet) := by
    intro hcond now hg hnow
    have hfull := Detector.replay_waits (c := Bridge.escapeConfig f.app.config.streamGuardTimeMs)
      (sessionStart f.app.log) (history (session older)) third [second] (first.now, first.flushNow) waits rfl
      (by rw [hstate']; exact hready.mpr hcond)
    rw [Bridge.replayed, hlog, hhistory, hfull] at hstate
    obtain ⟨hheld, hlast⟩ := Detector.State.mk.inj hstate
    exact escapeExit_step_iff h hheld.symm hlast.symm hg hnow
  constructor
  · rintro ⟨hkept, hexits⟩
    obtain ⟨hheld, hquiet⟩ := hnewer.mp hkept
    have hbound : Detector.elapsed first.now last < 2 ^ 64 := Detector.elapsed_lt _ _
    have hsoon : (f.app.config.streamGuardTimeMs : Int) ≤ (third.1 + f.app.config.streamGuardTimeMs) - third.1 := by omega
    have hnow : (third.1 + f.app.config.streamGuardTimeMs) - third.1 < 2 ^ 64 := by omega
    exact ⟨hheld, hquiet, (hlate ⟨hheld, hquiet⟩ _ hsoon hnow).mp (hexits _ hsoon hnow)⟩
  · rintro ⟨hheld, hquiet, hroom⟩
    exact ⟨hnewer.mpr ⟨hheld, hquiet⟩, fun now hg hnow => (hlate ⟨hheld, hquiet⟩ now hg hnow).mpr hroom⟩

theorem escape_not_missed_escape :
    EscapeExit (runDataMode (stackRefusing []) [hostSends "+++" 5000]).app
      (step (stackRefusing []) (runDataMode (stackRefusing []) [hostSends "+++" 5000]) (.escapeGuardWork 6000)).app := by
  obtain ⟨hmode, hguard, hlog⟩ : (runDataMode (stackRefusing []) [hostSends "+++" 5000]).app.appState = .dataMode ∧
      (runDataMode (stackRefusing []) [hostSends "+++" 5000]).app.config.streamGuardTimeMs = 1000 ∧
      session (runDataMode (stackRefusing []) [hostSends "+++" 5000]).app.log =
        [.uptime 5000, .rx ⟨PLUS, 5000, 5000⟩ 2 5000, .uptime 5000, .rx ⟨PLUS, 5000, 5000⟩ 1 5000, .uptime 5000] ++
          .rx ⟨PLUS, 5000, 5000⟩ 0 3000 :: [.dataRx (ascii "+++") 16384 0] := by decide
  have hp : ThreePluses
      [.uptime 5000, .rx ⟨PLUS, 5000, 5000⟩ 2 5000, .uptime 5000, .rx ⟨PLUS, 5000, 5000⟩ 1 5000, .uptime 5000]
      ⟨PLUS, 5000, 5000⟩ (5000, 5000) (5000, 5000) [] := ⟨rfl, rfl⟩
  have hexit := escape_not_missed (stackRefusing []) (reachable_runDataMode _ _) hmode hlog hp
  rw [hguard] at hexit
  exact (hexit.mpr ⟨rfl, by decide, by decide⟩).2 6000 (by decide) (by decide)

/-- A single plus that the timer flushes, and an escape sequence 1500 ms after it. -/
def missedEscape : List Event := [hostSends "+" 5000, .escapeGuardWork 6000, hostSends "+++" 6500]

theorem flush_hides_escape :
    let f := runDataMode (stackRefusing []) missedEscape
    Reachable (stackRefusing []) f ∧ f.app.appState = .dataMode ∧
      hostBytes (session f.app.log) = [(PLUS, 6500), (PLUS, 6500), (PLUS, 6500), (PLUS, 5000)] ∧
      collect Obs.stored (session f.app.log) = ascii "++++" ∧
      ∀ now, (step (stackRefusing []) f (.escapeGuardWork now)).app.appState = .dataMode := by
  intro f
  obtain ⟨hmode, hidle, hbytes, hstored⟩ : f.app.appState = .dataMode ∧ f.app.escapeGuardWork.isSome = false ∧
      hostBytes (session f.app.log) = [(PLUS, 6500), (PLUS, 6500), (PLUS, 6500), (PLUS, 5000)] ∧
      collect Obs.stored (session f.app.log) = ascii "++++" := by decide +kernel
  refine ⟨reachable_runDataMode _ _, hmode, hbytes, hstored, fun now => ?_⟩
  simp only [step, stepApp, hidle, Bool.false_eq_true, if_false]
  exact hmode

end BleAtHost.Main
