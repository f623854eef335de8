import BleAtHost.Main.Lemmas.Traffic
import BleAtHost.Main.Theorems.Status

/-!
# Writes fit the link

`payload_len` is computed from the configuration and the ATT MTU when one of them may have changed. It is never too long
as long as the ATT MTU of a connection does not fall.
-/

namespace BleAtHost.Main

variable {s s' : App} {env : Env}

/-! ## Definitions -/

/-- The ATT MTU is at least 23 and does not fall on a connection. -/
def mtuGrows (f : Firmware) : Event → Bool
  | .attMtu mtu => 23 ≤ mtu && (!f.app.link.isUp || f.app.attMtu ≤ mtu)
  | _ => true

/-- What is given to the stack fits the ATT MTU. -/
def Obs.writeFits (attMtu : Nat) : Obs → Prop
  | .stack (.gattWrite _ _ data) _ | .stack (.gattWriteWithoutResponse _ _ data) _ =>
      1 ≤ data.length ∧ data.length ≤ min 256 (attMtu - 3)
  | _ => True

/-- The pump is told that its payload is too long. -/
def Obs.tooLong : Obs → Prop
  | .write _ result _ => result = -EMSGSIZE
  | _ => False

/-- The stack says that a payload is too long which fits the ATT MTU. -/
def Obs.misjudged (attMtu : Nat) : Obs → Prop
  | .stack (.gattWrite _ _ data) result | .stack (.gattWriteWithoutResponse _ _ data) result =>
      result = -EMSGSIZE ∧ data.length ≤ attMtu - 3
  | _ => False

/-! ## The invariant -/

namespace Traffic

variable {t t' : Traffic} {command : Prop}

structure Fitting (t : Traffic) : Prop where
  mtu : 23 ≤ t.mtu ∧ t.mtu ≤ 259
  attMtu : 23 ≤ t.attMtu
  payloadLen : 20 ≤ t.payloadLen ∧ t.payloadLen ≤ 256
  link : t.conn.isSome → t.payloadLen ≤ t.attMtu - 3

theorem Fitting.of_same (h : t.Fitting) (hm : t'.mtu = t.mtu) (ha : t'.attMtu = t.attMtu)
    (hp : t'.payloadLen = t.payloadLen) (hc : t'.conn = t.conn) : t'.Fitting := by
  constructor
  · rw [hm]; exact h.mtu
  · rw [ha]; exact h.attMtu
  · rw [hp]; exact h.payloadLen
  · rw [hc, hp, ha]; exact h.link

/-- Whatever the payload length was. -/
theorem fitting_refit (hm : 23 ≤ t.mtu ∧ t.mtu ≤ 259) (ha : 23 ≤ t.attMtu) : t.refit.Fitting := by
  have hmtu : ¬t.mtu < 23 := by omega
  constructor
  · exact hm
  · exact ha
  · simp only [refit, if_neg hmtu]
    split
    · split
      · omega
      · omega
    · split
      · omega
      · omega
  · intro hc
    have hc : t.conn.isSome := hc
    simp only [refit, if_neg hmtu, hc, if_true]
    split
    · omega
    · omega

theorem Fitting.refit (h : t.Fitting) : t.refit.Fitting := fitting_refit h.mtu h.attMtu

theorem Fitting.issue (h : t.Fitting) (w : Write) (result : Int) : (t.issue w result).Fitting := by
  obtain ⟨_, _, _, he⟩ := issue_eq t w result
  rw [he]
  exact h.of_same rfl rfl rfl rfl

theorem Fitting.finish (h : t.Fitting) (chunk : List Byte) (result : Int) (ahead : Nat) :
    (t.finish chunk result ahead).Fitting := by
  obtain ⟨_, _, _, he⟩ := finish_eq t chunk result ahead
  rw [he]
  exact h.of_same rfl rfl rfl rfl

theorem Fitting.step (h : t.Fitting) (hs : Step env command t t') : t'.Fitting := by
  cases hs with
  | mtu mtu hm => exact ⟨hm, h.attMtu, h.payloadLen, h.link⟩
  | refit => exact h.refit
  | commanded w result => exact h.issue w result
  | pumped w n =>
      have hclaim : t.claim.Fitting := h.of_same rfl rfl rfl rfl
      exact (hclaim.issue w (env.answer n)).finish t.chunk _ _
  | refused result =>
      have hclaim : t.claim.Fitting := h.of_same rfl rfl rfl rfl
      exact hclaim.finish t.chunk result _
  | _ => exact h.of_same rfl rfl rfl rfl

theorem Step.attMtu (hs : Step env command t t') : t'.attMtu = t.attMtu := by
  have hissue : ∀ (u : Traffic) (w : Write) (result : Int), (u.issue w result).attMtu = u.attMtu := by
    intro u w result
    obtain ⟨_, _, _, he⟩ := issue_eq u w result
    rw [he]
  have hfinish : ∀ (u : Traffic) (chunk : List Byte) (result : Int) (ahead : Nat),
      (u.finish chunk result ahead).attMtu = u.attMtu := by
    intro u chunk result ahead
    obtain ⟨_, _, _, he⟩ := finish_eq u chunk result ahead
    rw [he]
  cases hs with
  | commanded w result => exact hissue t w result
  | pumped w n =>
      rw [hfinish, hissue]
      rfl
  | refused result =>
      rw [hfinish]
      rfl
  | _ => rfl

/-! ## What a step observes -/

theorem Fitting.call (h : t.Fitting) {w : Write} (hw : t.MayWrite w) (result : Int) :
    (Obs.stack w.call result).writeFits t.attMtu := by
  have hconn : t.conn.isSome := by
    rw [hw.conn]
    rfl
  have hlen : w.data.length ≤ min 256 (t.attMtu - 3) := Nat.le_min.mpr ⟨hw.buffer, hw.fits.trans (h.link hconn)⟩
  unfold Write.call
  split
  · exact ⟨hw.pos, hlen⟩
  · exact ⟨hw.pos, hlen⟩

/-- What is observed of the writes: they fit, and only the stack can tell the pump that a payload is too long. -/
structure Observed (attMtu : Nat) (new : List Obs) : Prop where
  fits : ∀ o ∈ new, o.writeFits attMtu
  tooLong : ∀ o ∈ new, o.tooLong → ∃ o' ∈ new, o'.misjudged attMtu

theorem Observed.nil (attMtu : Nat) : Observed attMtu [] := ⟨by simp, by simp⟩

theorem Observed.single {attMtu : Nat} {o : Obs} (hf : o.writeFits attMtu) (hl : ¬o.tooLong) : Observed attMtu [o] where
  fits := by simpa using hf
  tooLong := by simpa using fun h => absurd h hl

theorem Observed.append {attMtu : Nat} {newer new : List Obs} (hnewer : Observed attMtu newer) (hnew : Observed attMtu new) :
    Observed attMtu (newer ++ new) where
  fits o ho := (List.mem_append.mp ho).elim (hnewer.fits o) (hnew.fits o)
  tooLong o ho hl := by
    rcases List.mem_append.mp ho with hm | hm
    · obtain ⟨o', ho', hmis⟩ := hnewer.tooLong o hm hl
      exact ⟨o', List.mem_append_left new ho', hmis⟩
    · obtain ⟨o', ho', hmis⟩ := hnew.tooLong o hm hl
      exact ⟨o', List.mem_append_right newer ho', hmis⟩

theorem Fitting.call_misjudged (h : t.Fitting) {w : Write} (hw : t.MayWrite w) {result : Int} (hr : result = -EMSGSIZE) :
    (Obs.stack w.call result).misjudged t.attMtu := by
  have hfits := h.call hw result
  obtain ⟨conn, handle, data, acked⟩ := w
  cases acked with
  | false => exact ⟨hr, hfits.2.trans (Nat.min_le_right _ _)⟩
  | true => exact ⟨hr, hfits.2.trans (Nat.min_le_right _ _)⟩

theorem Fitting.observes (h : t.Fitting) (hs : Step env command t t') :
    ∃ new, t'.log = new ++ t.log ∧ Observed t.attMtu new := by
  have hone : ∀ o : Obs, o.writeFits t.attMtu → ¬o.tooLong → ∃ new, o :: t.log = new ++ t.log ∧ Observed t.attMtu new :=
    fun o hf hl => ⟨[o], rfl, .single hf hl⟩
  cases hs with
  | mtu => exact ⟨[], rfl, .nil _⟩
  | refit => exact ⟨[], rfl, .nil _⟩
  | commanded w result hw =>
      rw [issue_log]
      exact hone _ (h.call hw result) id
  | pumped w n hd hw =>
      rw [finish_log, issue_log]
      refine ⟨[.write t.chunk (env.answer n) t.toBle.claimed, .stack w.call (env.answer n)], rfl, ?_, ?_⟩
      · simpa [Obs.writeFits] using h.call hw (env.answer n)
      · intro o ho hl
        obtain rfl | ho := List.mem_cons.mp ho
        · exact ⟨.stack w.call (env.answer n), by simp, h.call_misjudged hw hl⟩
        · rw [List.mem_singleton.mp ho] at hl
          exact absurd hl id
  | refused result hr he =>
      rw [finish_log]
      exact hone _ trivial he
  | _ => exact hone _ trivial id

/-- The steps of one event. -/
theorem Fitting.steps (h : t.Fitting) (hs : Steps env command t t') :
    t'.Fitting ∧ t'.attMtu = t.attMtu ∧ ∃ new, t'.log = new ++ t.log ∧ Observed t.attMtu new := by
  refine Runs.invariant (P := fun u => u.Fitting ∧ u.attMtu = t.attMtu ∧
    ∃ new, u.log = new ++ t.log ∧ Observed t.attMtu new) ?_ hs ⟨h, rfl, [], rfl, .nil _⟩
  rintro a b hab ⟨ha, hmtu, new, hlog, hnew⟩
  obtain ⟨newer, hb, hnewer⟩ := ha.observes hab
  rw [hmtu] at hnewer
  refine ⟨ha.step hab, hab.attMtu.trans hmtu, newer ++ new, ?_, hnewer.append hnew⟩
  rw [hb, hlog, List.append_assoc]

end Traffic

/-! ## Runs -/

theorem Reachable.fitting_report {f : Firmware} (h : Reachable env f) (ht : f.app.traffic.Fitting) {e : Event}
    (hg : mtuGrows f e) : (f.app.report e).Fitting := by
  unfold App.report
  split
  · rename_i mtu
    simp only [mtuGrows, Bool.and_eq_true, Bool.or_eq_true, Bool.not_eq_true', decide_eq_true_eq] at hg
    refine ⟨ht.mtu, hg.1, ht.payloadLen, fun hc => ?_⟩
    have hle : f.app.attMtu ≤ mtu := by
      rcases hg.2 with hdown | hle
      · rw [h.isUp hc] at hdown
        cases hdown
      · exact hle
    have hfit : f.app.pm.payloadLen ≤ f.app.attMtu - 3 := ht.link hc
    have hfit' : f.app.pm.payloadLen ≤ mtu - 3 := by omega
    exact hfit'
  · split
    · exact Traffic.fitting_refit ht.mtu ht.attMtu
    · exact ht
  · rename_i reason conn _
    have hcount : (f.app.traffic.countDisconnect reason).Fitting := by
      unfold Traffic.countDisconnect
      split
      · exact ht.of_same rfl rfl rfl rfl
      · exact ht
    have hreset : (f.app.traffic.countDisconnect reason).cleared.refit.Fitting :=
      Traffic.fitting_refit hcount.mtu hcount.attMtu
    exact ⟨hreset.mtu, hreset.attMtu, hreset.payloadLen, fun hc => by cases hc⟩
  · exact ht.of_same rfl rfl rfl rfl
  · exact ht.of_same rfl rfl rfl rfl
  · exact ht

/-- The head of a handler writes nothing. -/
theorem report_observes (s : App) (e : Event) (attMtu : Nat) :
    ∃ new, (s.report e).log = new ++ s.traffic.log ∧ Traffic.Observed attMtu new := by
  have hnone : ∃ new, s.traffic.log = new ++ s.traffic.log ∧ Traffic.Observed attMtu new := ⟨[], rfl, .nil _⟩
  unfold App.report
  split
  · exact hnone
  · split
    · exact hnone
    · exact hnone
  · rename_i reason conn _
    have hone : ∀ o : Obs, o.writeFits attMtu → ¬o.tooLong → Traffic.Observed attMtu [o] := fun _ => .single
    exact ⟨_, Traffic.closed_log _ _ _, (hone (.clear _) trivial id).append ((hone .h2bReset trivial id).append
      (hone (.disconnected _) trivial id))⟩
  · exact hnone
  · exact hnone
  · exact hnone

theorem report_attMtu (s : App) (e : Event) (h : ∀ mtu, e ≠ .attMtu mtu) : (s.report e).attMtu = s.attMtu := by
  unfold App.report
  split
  · exact absurd rfl (h _)
  · split
    · rfl
    · rfl
  · rename_i reason conn _
    unfold Traffic.closed Traffic.countDisconnect
    split
    · rfl
    · rfl
  · rfl
  · rfl
  · rfl

theorem observed_of_filter {attMtu : Nat} {new : List Obs} (h : Traffic.Observed attMtu (new.filter Obs.isTraffic)) :
    Traffic.Observed attMtu new := by
  have hmem : ∀ {o : Obs}, o ∈ new → o.isTraffic → o ∈ new.filter Obs.isTraffic := fun ho ht => List.mem_filter.mpr ⟨ho, ht⟩
  constructor
  · intro o ho
    cases o with
    | stack call result =>
        cases call with
        | gattWrite | gattWriteWithoutResponse => exact h.fits _ (hmem ho rfl)
        | _ => trivial
    | _ => trivial
  · intro o ho hl
    cases o with
    | write chunk result ahead =>
        obtain ⟨o', ho', hmis⟩ := h.tooLong _ (hmem ho rfl) hl
        exact ⟨o', List.mem_of_mem_filter ho', hmis⟩
    | _ => exact absurd hl id

theorem fitting_step {f : Firmware} (h : Reachable env f) (ht : f.app.traffic.Fitting) {e : Event} (hg : mtuGrows f e) :
    (step env f e).app.traffic.Fitting ∧ Traffic.Observed f.app.attMtu (news env f e) := by
  obtain ⟨hfit, -, new, hlog, hnew⟩ := (h.fitting_report ht hg).steps (step_traffics env h.linkHeld e)
  refine ⟨hfit, ?_⟩
  by_cases he : ∃ mtu, e = .attMtu mtu
  · obtain ⟨mtu, rfl⟩ := he
    have hnone : news env f (.attMtu mtu) = [] := by
      rw [news, show (step env f (.attMtu mtu)).app.log = f.app.log from rfl, Nat.sub_self, List.take_zero]
    rw [hnone]
    exact .nil _
  · push Not at he
    obtain ⟨first, hreport, hfirst⟩ := report_observes f.app e f.app.attMtu
    rw [report_attMtu f.app e he] at hnew
    rw [news_traffic env h e, hreport, ← List.append_assoc] at hlog
    have hnews : (news env f e).filter Obs.isTraffic = new ++ first := List.append_cancel_right hlog
    apply observed_of_filter
    rw [hnews]
    exact hnew.append hfirst

/-- The payload length stays in its range and every write fits, for any configuration and any order of events. The pump is
told that its payload is too long only where the stack says so of one that fits. -/
theorem writes_fit (env : Env) (config : BleHostConfig) (hmtu : 23 ≤ config.mtu ∧ config.mtu ≤ 259) (started : Int)
    (dtr : Bool) (es : List Event) (hes : Runs.Along (fun f e => mtuGrows f e) (step env) (boot config started dtr) es) :
    let f := Runs.run (step env) (boot config started dtr) es
    (20 ≤ f.app.pm.payloadLen ∧ f.app.pm.payloadLen ≤ 256) ∧
      ∀ e, mtuGrows f e → (∀ o ∈ news env f e, o.writeFits f.app.attMtu) ∧
        ((∀ o ∈ news env f e, ¬o.misjudged f.app.attMtu) → ∀ o ∈ news env f e, ¬o.tooLong) := by
  have hboot : (boot config started dtr).app.traffic.Fitting := by
    refine ⟨hmtu, Nat.le_refl 23, ?_, fun hc => by cases hc⟩
    change 20 ≤ min 23 (if config.mtu < 23 then 23 else config.mtu) - 3 ∧
      min 23 (if config.mtu < 23 then 23 else config.mtu) - 3 ≤ 256
    rw [if_neg (by omega)]
    omega
  have hrun := Runs.run_invariant_along (P := fun f => Reachable env f ∧ f.app.traffic.Fitting)
    (fun f e hg h => ⟨h.1.next env e, (fitting_step h.1 h.2 hg).1⟩) ⟨⟨config, started, dtr, [], rfl⟩, hboot⟩ hes
  refine ⟨hrun.2.payloadLen, fun e hg => ?_⟩
  have hobserved := (fitting_step hrun.1 hrun.2 hg).2
  refine ⟨hobserved.fits, fun hstack o ho hl => ?_⟩
  obtain ⟨o', ho', hmis⟩ := hobserved.tooLong o ho hl
  exact hstack o' ho' hmis

theorem writes_fit_grown :
    let f := Runs.run (step (stackRefusing [])) (boot sampleConfig 0 true)
      [hostSends "AT+STARTCON=0x010203040506,0\r\n" 0, .connected 0, .attMtu 247, .exchange 0]
    (20 ≤ f.app.pm.payloadLen ∧ f.app.pm.payloadLen ≤ 256) ∧
      ∀ e, mtuGrows f e → (∀ o ∈ news (stackRefusing []) f e, o.writeFits f.app.attMtu) ∧
        ((∀ o ∈ news (stackRefusing []) f e, ¬o.misjudged f.app.attMtu) → ∀ o ∈ news (stackRefusing []) f e, ¬o.tooLong) :=
  writes_fit (stackRefusing []) sampleConfig (by decide) 0 true _ (by decide)

end BleAtHost.Main
