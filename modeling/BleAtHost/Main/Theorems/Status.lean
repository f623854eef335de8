import BleAtHost.Main.Theorems.Connection

/-!
# The status of the connection

`AT+CONSTATUS` is answered from `current_conn`, which is already set while the connection is being created.
-/

namespace BleAtHost.Main

variable {s s' : App} {env : Env} {report : App → StackReport → Prop} {log : List Obs}

def Obs.isDisconnected : Obs → Bool
  | .disconnected _ => true
  | _ => false

/-- A connection has been opened and not been lost since. -/
def LinkUp (log : List Obs) : Prop := .connected 0 ∈ log ∧ ∀ o ∈ sinceConnected log, !o.isDisconnected

instance (log : List Obs) : Decidable (LinkUp log) := inferInstanceAs (Decidable (_ ∧ _))

/-- The status and the last line of the answer tell whether the link is up. -/
structure StatusTruthful (env : Env) (f : Firmware) : Prop where
  status : (opGetStatus env f.app).1.connected ↔ LinkUp f.app.log
  line : (AtHost.handleGetStatus (atOps env) atTx f.world).trace.head? = some (.line (ascii "+OK=NUM,1")) ↔
    LinkUp f.app.log

/-! ## The link in the log -/

theorem linkUp_cons {o : Obs} : LinkUp (o :: log) ↔ o = .connected 0 ∨ o.isDisconnected = false ∧ LinkUp log := by
  by_cases hc : o = .connected 0
  · subst hc
    simp [LinkUp, sinceConnected]
  · have hspan : sinceConnected (o :: log) = o :: sinceConnected log := sinceConnected_cons hc log
    have hne : (Obs.connected 0 : Obs) ≠ o := fun he => hc he.symm
    simp only [LinkUp, hspan, List.mem_cons, hc, hne, false_or, forall_eq_or_imp]
    cases o.isDisconnected with
    | false => simp
    | true => simp

theorem linkUp_append {new : List Obs} (hn : ∀ o ∈ new, o.Aside) : LinkUp (new ++ log) ↔ LinkUp log := by
  have hopened : .connected 0 ∉ new := fun hm => hn _ hm
  have hlost : ∀ o ∈ new, o.isDisconnected = false := by
    intro o hm
    have ho : o.Aside := hn o hm
    cases o with
    | disconnected reason => exact ho.elim
    | _ => rfl
  simp only [LinkUp, sinceConnected_append hn, List.mem_append, hopened, false_or]
  refine and_congr_right fun _ => ⟨fun h o ho => h o (.inr ho), ?_⟩
  rintro h o (ho | ho)
  · simp [hlost o ho]
  · exact h o ho

structure LinkKept (s : App) : Prop where
  down : s.link = .down → s.currentConn = none
  up : (∃ conn, s.link = .up conn) ↔ LinkUp s.log

theorem LinkKept.of_same (h : LinkKept s) (hl : s'.link = s.link) (hc : s'.currentConn = s.currentConn)
    (hlog : LinkUp s'.log ↔ LinkUp s.log) : LinkKept s' where
  down hd := by rw [hc]; exact h.down (hl ▸ hd)
  up := by rw [hl, hlog]; exact h.up

theorem LinkKept.announceReady (h : LinkKept s) : LinkKept (announceReady s) := by
  rcases announceReady_cases s with ⟨he, _⟩ | ⟨he, _⟩
  · rw [he]; exact h.of_same rfl rfl (by simp [linkUp_cons, Obs.isDisconnected])
  · rw [he]; exact h.of_same rfl rfl (by simp [linkUp_cons, Obs.isDisconnected])

theorem LinkKept.control (h : LinkKept s) (hk : ConnectionKept s) (hc : Control env report s s') : LinkKept s' := by
  have hnot : (∀ conn, s.link ≠ .up conn) → ¬LinkUp s.log := by
    intro hn hup
    obtain ⟨conn, hl⟩ := h.up.mpr hup
    exact hn conn hl
  cases hc with
  | aside ha =>
      obtain ⟨new, hnew, hlog⟩ := ha.log
      refine h.of_same ha.link ha.currentConn ?_
      rw [hlog]
      exact linkUp_append hnew
  | readyFound => exact h.announceReady
  | subscribed => exact h.announceReady
  | found chrc => exact h.of_same rfl rfl Iff.rfl
  | create peer hcur =>
      obtain ⟨_, _, _, _, result, hlog, ⟨_, ha⟩ | ⟨_, ha⟩⟩ := createConnection_cases env s peer
      · refine h.of_same ha.link (ha.currentConn.trans hcur.symm) ?_
        rw [hlog]
        simp [linkUp_cons, Obs.isDisconnected]
      · -- no link is up without a connection
        have hdown : ¬LinkUp s.log := hnot fun conn hl => by
          rw [hk.up hl] at hcur
          cases hcur
        constructor
        · intro hl
          rw [ha.link] at hl
          cases hl
        · rw [ha.link, hlog]
          simp [linkUp_cons, Obs.isDisconnected, hdown]
  | connectFailed err conn hl hcur he =>
      have hdown : ¬LinkUp s.log := hnot fun conn' hu => by
        rw [hl] at hu
        cases hu
      constructor
      · exact fun _ => rfl
      · simp [linkUp_cons, Obs.isDisconnected, he, hdown]
  | opened conn hl =>
      constructor
      · rintro ⟨⟩
      · simp [linkUp_cons]
  | closed conn reason hl hcur hpc =>
      have hclosed : ClosedFrom s (closeConnection env s conn reason) conn := closedFrom hcur hpc reason
      obtain ⟨_, _, _, hlog⟩ := hclosed.log
      constructor
      · exact fun _ => hclosed.currentConn
      · rw [hclosed.link, hlog]
        simp [linkUp_cons, Obs.isDisconnected]
  | left now =>
      refine h.of_same rfl rfl ?_
      simp [leaveDataMode, clearDataModeSession, App.note, linkUp_cons, Obs.isDisconnected]
  | entered now =>
      refine h.of_same rfl rfl ?_
      simp [enterDataModeNow, linkUp_cons, Obs.isDisconnected]
  | _ =>
      refine h.of_same rfl rfl ?_
      simp [App.ask, setState, replaceProfile, linkUp_cons, Obs.isDisconnected]

theorem linkKept_boot (config : BleHostConfig) (started : Int) (dtr : Bool) : LinkKept (boot config started dtr).app := by
  constructor
  · exact fun _ => rfl
  · simp [boot, LinkUp]

theorem Reachable.linkKept {f : Firmware} (h : Reachable env f) : ConnectionKept f.app ∧ LinkKept f.app :=
  Reachable.control (P := fun s => ConnectionKept s ∧ LinkKept s)
    (fun config started dtr => ⟨connectionKept_boot config started dtr, linkKept_boot config started dtr⟩)
    (fun hc hk => ⟨hk.1.control hc, hk.2.control hk.1 hc⟩) h

def Link.isUp : Link → Bool
  | .up _ => true
  | _ => false

/-- Only an open connection is held by the profile manager. -/
theorem Reachable.isUp {f : Firmware} (h : Reachable env f) (hc : f.app.pm.conn.isSome) : f.app.link.isUp := by
  obtain ⟨hk, hlink⟩ := h.linkKept
  cases hl : f.app.link with
  | up conn => rfl
  | creating conn =>
      rw [(hk.creating hl).2] at hc
      cases hc
  | down =>
      have hnone : f.app.pm.conn = none := hk.manager_none (hlink.down hl)
      rw [hnone] at hc
      cases hc

/-! ## The answer -/

theorem opGetStatus_connected (env : Env) (s : App) : (opGetStatus env s).1.connected = s.currentConn.isSome := by
  unfold opGetStatus
  cases s.currentConn with
  | none => rfl
  | some conn => rfl

/-- The answer ends with the number of connections. -/
theorem handleGetStatus_line (env : Env) (f : Firmware) :
    (AtHost.handleGetStatus (atOps env) atTx f.world).trace.head? = some (.line (ascii "+OK=NUM,1")) ↔
      (opGetStatus env f.app).1.connected := by
  have hne : ascii "+OK=NUM,0" ≠ ascii "+OK=NUM,1" := by decide
  have hstatus : (atOps env).getStatus f.world.ctx = opGetStatus env f.app := rfl
  simp only [AtHost.handleGetStatus, AtHost.World.called, hstatus]
  cases (opGetStatus env f.app).1.connected with
  | false => simp [AtHost.txLine, hne]
  | true => simp [AtHost.txLine]

/-- Only while a connection is being created is the status wrong. -/
theorem status_truthful_iff (env : Env) {f : Firmware} (h : Reachable env f) :
    StatusTruthful env f ↔ ∀ conn, f.app.link ≠ .creating conn := by
  obtain ⟨hk, hlink⟩ := h.linkKept
  have hiff : StatusTruthful env f ↔ (f.app.currentConn.isSome ↔ LinkUp f.app.log) := by
    rw [← opGetStatus_connected env]
    exact ⟨fun ht => ht.status, fun hs => ⟨hs, (handleGetStatus_line env f).trans hs⟩⟩
  rw [hiff, ← hlink.up]
  cases hl : f.app.link with
  | down => simp [hlink.down hl]
  | creating conn => simp [(hk.creating hl).1]
  | up conn => simp [hk.up hl]

/-- A connection attempt and the connection that comes of it. -/
theorem attempt_observed :
    let attempt := Runs.run (step (stackRefusing [])) (boot sampleConfig 0 true)
      [hostSends "AT+STARTCON=0x010203040506,0\r\n" 0]
    let opened := step (stackRefusing []) attempt (.connected 0)
    (attempt.app.currentConn.isSome ∧ ¬LinkUp attempt.app.log) ∧
      opened.app.link = .up ⟨0, [6, 5, 4, 3, 2, 1], 0⟩ := by
  decide

theorem status_truthful_opened :
    StatusTruthful (stackRefusing []) (Runs.run (step (stackRefusing [])) (boot sampleConfig 0 true)
      [hostSends "AT+STARTCON=0x010203040506,0\r\n" 0, .connected 0]) :=
  (status_truthful_iff (stackRefusing []) ⟨sampleConfig, 0, true, _, rfl⟩).mpr fun conn hl => by
    have hboth : Link.up ⟨0, [6, 5, 4, 3, 2, 1], 0⟩ = Link.creating conn := attempt_observed.2.symm.trans hl
    cases hboth

/-- A pending attempt is reported as a connection. -/
theorem pending_attempt_reported :
    let f := Runs.run (step (stackRefusing [])) (boot sampleConfig 0 true)
      [hostSends "AT+STARTCON=0x010203040506,0\r\n" 0]
    Reachable (stackRefusing []) f ∧ ¬StatusTruthful (stackRefusing []) f := by
  refine ⟨⟨sampleConfig, 0, true, _, rfl⟩, fun ht => ?_⟩
  obtain ⟨hc, hdown⟩ := attempt_observed.1
  have hstatus := ht.status
  rw [opGetStatus_connected] at hstatus
  exact hdown (hstatus.mp hc)

end BleAtHost.Main
