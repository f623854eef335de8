import BleAtHost.Main.Lemmas.Traffic
import BleAtHost.Main.Theorems.Status

/-!
# Operations under way

The stack keeps pointers into the profile manager while a write with a response or an MTU exchange is under way. Which
ones are is a matter of the history alone: what the stack has accepted and what it has completed.
-/

namespace BleAtHost.Main

variable {s s' : App} {env : Env}

/-! ## Definitions -/

/-- A write goes with its handle and its data. -/
structure Outstanding where
  write : Option (Nat × List Byte)
  exchange : Bool
deriving DecidableEq, Repr

namespace Outstanding

def idle : Outstanding := ⟨none, false⟩

/-- The stack has accepted an operation. -/
def after (g : Outstanding) : Obs → Outstanding
  | .stack (.gattWrite _ handle data) result => if result = 0 then { g with write := some (handle, data) } else g
  | .stack (.gattExchangeMtu _) result => if result = 0 then { g with exchange := true } else g
  | _ => g

def afterAll (g : Outstanding) (new : List Obs) : Outstanding := new.foldr (fun o g => g.after o) g

/-- The stack calls the handler of an operation; then the operation is over. -/
def completed (g : Outstanding) (s : App) (e : Event) : Outstanding :=
  match e, s.link with
  | .exchange _, .up _ => { g with exchange := false }
  | .write _, .up _ => { g with write := none }
  | _, _ => g

/-- No call is made for an operation of a kind that is under way already. -/
def Admits (g : Outstanding) : Obs → Prop
  | .stack (.gattWrite _ _ _) _ => g.write = none
  | .stack (.gattExchangeMtu _) _ => g.exchange = false
  | _ => True

def Single (g : Outstanding) : List Obs → Prop
  | [] => True
  | o :: new => (g.afterAll new).Admits o ∧ g.Single new

/-- What the stack points to is still there. -/
structure Held (g : Outstanding) (pm : ProfileManagerState) : Prop where
  write : ∀ handle data, g.write = some (handle, data) → pm.pendingWrite = data ∧ pm.writeParams = ⟨handle, data.length⟩
  exchange : g.exchange → pm.exchangeParams

end Outstanding

/-- The firmware and what is under way. -/
def watch (env : Env) (p : Firmware × Outstanding) (e : Event) : Firmware × Outstanding :=
  (step env p.1 e, (p.2.completed p.1.app e).afterAll (news env p.1 e))

/-- The stack completes what it has accepted, once, and before it reports the end of the connection. -/
def inOrder (p : Firmware × Outstanding) (e : Event) : Bool :=
  match e, p.1.app.link with
  | .exchange _, .up _ => p.2.exchange
  | .write _, .up _ => p.2.write.isSome
  | .disconnected _, .up _ => p.2 = .idle
  | _, _ => true

/-! ## The invariant -/

namespace Traffic

variable {t t' : Traffic} {command : Prop} {g : Outstanding}

structure Holds (t : Traffic) (g : Outstanding) : Prop where
  write : ∀ handle data, g.write = some (handle, data) →
    t.writeInProgress = true ∧ t.pendingWrite = data ∧ t.writeParams = ⟨handle, data.length⟩
  exchange : g.exchange → t.exchangeInProgress = true ∧ t.exchangeParams = true
  conn : g ≠ .idle → t.conn ≠ none

theorem holds_idle (t : Traffic) : t.Holds .idle where
  write _ _ h := by cases h
  exchange h := by cases h
  conn h := absurd rfl h

/-- The fields that matter to what is under way. -/
theorem Holds.of_same (h : t.Holds g) (hw : t'.writeInProgress = t.writeInProgress) (hp : t'.pendingWrite = t.pendingWrite)
    (hparams : t'.writeParams = t.writeParams) (he : t'.exchangeInProgress = t.exchangeInProgress)
    (hx : t'.exchangeParams = t.exchangeParams) (hc : t'.conn = t.conn) : t'.Holds g := by
  constructor
  · rw [hw, hp, hparams]; exact h.write
  · rw [he, hx]; exact h.exchange
  · rw [hc]; exact h.conn

theorem Holds.write_none (h : t.Holds g) (hidle : t.writeInProgress = false) : g.write = none := by
  cases hw : g.write with
  | none => rfl
  | some w =>
      have hbusy := (h.write w.1 w.2 hw).1
      rw [hidle] at hbusy
      cases hbusy

theorem Holds.exchange_false (h : t.Holds g) (hidle : t.exchangeInProgress = false) : g.exchange = false := by
  cases hx : g.exchange with
  | false => rfl
  | true =>
      have hbusy := (h.exchange hx).1
      rw [hidle] at hbusy
      cases hbusy

theorem Holds.issue (h : t.Holds g) {w : Write} (hw : t.MayWrite w) (result : Int) :
    (t.issue w result).Holds (g.after (.stack w.call result)) ∧ g.Admits (.stack w.call result) := by
  have hconn : ∀ {u : Traffic}, u.conn = t.conn → u.conn ≠ none := by
    intro u hu
    rw [hu, hw.conn]
    exact Option.some_ne_none _
  unfold Traffic.issue Write.call
  cases hacked : w.acked with
  | false => exact ⟨h.of_same rfl rfl rfl rfl rfl rfl, trivial⟩
  | true =>
      have hnone : g.write = none := h.write_none (hw.idle hacked)
      refine ⟨?_, hnone⟩
      simp only [if_true, Outstanding.after]
      split
      · rename_i hr
        refine ⟨?_, h.exchange, fun _ => hconn rfl⟩
        rintro handle data ⟨⟩
        exact ⟨decide_eq_true hr, rfl, rfl⟩
      · refine ⟨?_, h.exchange, h.conn⟩
        intro handle data hg
        rw [hnone] at hg
        cases hg

theorem Holds.startExchange (h : t.Holds g) {conn : Conn} (hc : t.conn = some conn) (hi : t.exchangeInProgress = false)
    (result : Int) : (t.exchange conn result).Holds (g.after (.stack (.gattExchangeMtu conn) result)) ∧
      g.Admits (.stack (.gattExchangeMtu conn) result) := by
  have hnone : g.exchange = false := h.exchange_false hi
  refine ⟨?_, hnone⟩
  simp only [Outstanding.after]
  split
  · rename_i hr
    refine ⟨h.write, fun _ => ⟨decide_eq_true hr, decide_eq_true hr⟩, fun _ => ?_⟩
    rw [show (t.exchange conn result).conn = t.conn from rfl, hc]
    exact Option.some_ne_none conn
  · refine ⟨h.write, fun hg => ?_, h.conn⟩
    rw [hnone] at hg
    cases hg

theorem Holds.finish (h : t.Holds g) (chunk : List Byte) (result : Int) (ahead : Nat) :
    (t.finish chunk result ahead).Holds g := by
  obtain ⟨_, _, _, he⟩ := finish_eq t chunk result ahead
  rw [he]
  exact h.of_same rfl rfl rfl rfl rfl rfl

/-- One step keeps what is under way and starts no second operation of a kind. -/
theorem Holds.step (h : t.Holds g) (hs : Step env command t t') :
    ∃ new, t'.log = new ++ t.log ∧ t'.Holds (g.afterAll new) ∧ g.Single new := by
  have hone : ∀ {u : Traffic} {o : Obs}, u.log = o :: t.log → u.Holds (g.after o) ∧ g.Admits o →
      ∃ new, u.log = new ++ t.log ∧ u.Holds (g.afterAll new) ∧ g.Single new :=
    fun {_ o} hlog hu => ⟨[o], hlog, hu.1, hu.2, trivial⟩
  cases hs with
  | mtu => exact ⟨[], rfl, h.of_same rfl rfl rfl rfl rfl rfl, trivial⟩
  | refit => exact ⟨[], rfl, h.of_same rfl rfl rfl rfl rfl rfl, trivial⟩
  | exchange conn result hc hi => exact hone rfl (h.startExchange hc hi result)
  | commanded w result hw => exact hone (issue_log t w result) (h.issue hw result)
  | pumped w n hd hw =>
      have hclaim : t.claim.Holds g := h.of_same rfl rfl rfl rfl rfl rfl
      have hw' : t.claim.MayWrite w := ⟨hw.conn, hw.idle, hw.pos, hw.fits, hw.buffer⟩
      obtain ⟨hissued, hadmits⟩ := hclaim.issue hw' (env.answer n)
      refine ⟨[.write t.chunk (env.answer n) t.toBle.claimed, .stack w.call (env.answer n)], ?_, ?_, ?_⟩
      · rw [finish_log, issue_log]
        rfl
      · exact hissued.finish t.chunk _ _
      · exact ⟨trivial, hadmits, trivial⟩
  | refused result =>
      have hclaim : t.claim.Holds g := h.of_same rfl rfl rfl rfl rfl rfl
      exact hone (finish_log t.claim t.chunk result _) ⟨hclaim.finish t.chunk result _, trivial⟩
  | _ => exact hone rfl ⟨h.of_same rfl rfl rfl rfl rfl rfl, trivial⟩

end Traffic

namespace Outstanding

variable {g : Outstanding} {new newer : List Obs}

theorem afterAll_append (g : Outstanding) (newer new : List Obs) :
    g.afterAll (newer ++ new) = (g.afterAll new).afterAll newer := List.foldr_append

theorem Single.append (hnewer : (g.afterAll new).Single newer) (hnew : g.Single new) : g.Single (newer ++ new) := by
  induction newer with
  | nil => exact hnew
  | cons o newer ih =>
      have hadmits : ((g.afterAll new).afterAll newer).Admits o := hnewer.1
      rw [← afterAll_append] at hadmits
      exact ⟨hadmits, ih hnewer.2⟩

theorem after_of_not_traffic {o : Obs} (h : o.isTraffic = false) (g : Outstanding) : g.after o = g ∧ g.Admits o := by
  cases o with
  | stack call result =>
      cases call with
      | gattWrite | gattExchangeMtu => cases h
      | _ => exact ⟨rfl, trivial⟩
  | _ => exact ⟨rfl, trivial⟩

theorem afterAll_filter (g : Outstanding) (new : List Obs) : g.afterAll (new.filter Obs.isTraffic) = g.afterAll new := by
  induction new with
  | nil => rfl
  | cons o new ih =>
      cases ho : o.isTraffic with
      | true =>
          rw [List.filter_cons_of_pos ho]
          exact congrArg (·.after o) ih
      | false =>
          rw [List.filter_cons_of_neg (by simp [ho]), ih]
          exact (after_of_not_traffic ho _).1.symm

theorem single_of_filter (h : g.Single (new.filter Obs.isTraffic)) : g.Single new := by
  induction new with
  | nil => exact h
  | cons o new ih =>
      cases ho : o.isTraffic with
      | true =>
          rw [List.filter_cons_of_pos ho] at h
          refine ⟨?_, ih h.2⟩
          rw [← afterAll_filter]
          exact h.1
      | false =>
          rw [List.filter_cons_of_neg (by simp [ho])] at h
          exact ⟨(after_of_not_traffic ho _).2, ih h⟩

end Outstanding

/-- The steps of one event. -/
theorem Traffic.Holds.steps {t t' : Traffic} {command : Prop} {g : Outstanding} (h : t.Holds g)
    (hs : Traffic.Steps env command t t') :
    ∃ new, t'.log = new ++ t.log ∧ t'.Holds (g.afterAll new) ∧ g.Single new := by
  refine Runs.invariant (P := fun u => ∃ new, u.log = new ++ t.log ∧ u.Holds (g.afterAll new) ∧ g.Single new) ?_ hs
    ⟨[], rfl, h, trivial⟩
  rintro a b hab ⟨new, hlog, ha, hnew⟩
  obtain ⟨newer, hb, hkept, hnewer⟩ := ha.step hab
  refine ⟨newer ++ new, ?_, ?_, hnewer.append hnew⟩
  · rw [hb, hlog, List.append_assoc]
  · rw [Outstanding.afterAll_append]
    exact hkept

/-! ## Runs -/

/-- What the stack reports ends the operations that it ends, and starts none. -/
theorem Reachable.holds_report {f : Firmware} {g : Outstanding} (h : Reachable env f) (ht : f.app.traffic.Holds g)
    {e : Event} (ho : inOrder (f, g) e) :
    ∃ first, (f.app.report e).log = first ++ f.app.traffic.log ∧
      (f.app.report e).Holds ((g.completed f.app e).afterAll first) ∧ (g.completed f.app e).Single first := by
  have hnone : ∀ {u : Traffic} {g' : Outstanding}, u.log = f.app.traffic.log → u.Holds g' →
      ∃ first, u.log = first ++ f.app.traffic.log ∧ u.Holds (g'.afterAll first) ∧ g'.Single first :=
    fun hlog hu => ⟨[], hlog, hu, trivial⟩
  have hsame : f.app.report e = f.app.traffic → g.completed f.app e = g →
      ∃ first, (f.app.report e).log = first ++ f.app.traffic.log ∧
        (f.app.report e).Holds ((g.completed f.app e).afterAll first) ∧ (g.completed f.app e).Single first := by
    intro hr hg
    rw [hr, hg]
    exact hnone rfl ht
  cases e with
  | attMtu mtu => exact hnone rfl (ht.of_same rfl rfl rfl rfl rfl rfl)
  | connected err =>
      cases hl : f.app.link with
      | creating conn =>
          have hconn : f.app.traffic.conn = none := (h.linkKept.1.creating hl).2
          simp only [App.report, Outstanding.completed, hl]
          split
          · have hidle : g = .idle := not_not.mp fun hg => ht.conn hg hconn
            rw [hidle]
            exact hnone rfl (Traffic.holds_idle _)
          · exact hnone rfl ht
      | down => exact hsame (by simp only [App.report, hl]) rfl
      | up conn => exact hsame (by simp only [App.report, hl]) rfl
  | disconnected reason =>
      cases hl : f.app.link with
      | up conn =>
          have hidle : g = .idle := by simpa [inOrder, hl] using ho
          simp only [App.report, Outstanding.completed, hl]
          rw [hidle]
          exact ⟨_, Traffic.closed_log _ _ _, Traffic.holds_idle _, trivial, trivial, trivial, trivial⟩
      | down => exact hsame (by simp only [App.report, hl]) rfl
      | creating conn => exact hsame (by simp only [App.report, hl]) rfl
  | exchange err =>
      cases hl : f.app.link with
      | up conn =>
          simp only [App.report, Outstanding.completed, hl]
          refine hnone rfl ⟨ht.write, ?_, fun hg => ht.conn fun he => hg ?_⟩
          · rintro ⟨⟩
          · rw [he]
            rfl
      | down => exact hsame (by simp only [App.report, hl]) (by simp only [Outstanding.completed, hl])
      | creating conn => exact hsame (by simp only [App.report, hl]) (by simp only [Outstanding.completed, hl])
  | write err =>
      cases hl : f.app.link with
      | up conn =>
          simp only [App.report, Outstanding.completed, hl]
          refine hnone rfl ⟨?_, ht.exchange, fun hg => ht.conn fun he => hg ?_⟩
          · rintro _ _ ⟨⟩
          · rw [he]
            rfl
      | down => exact hsame (by simp only [App.report, hl]) (by simp only [Outstanding.completed, hl])
      | creating conn => exact hsame (by simp only [App.report, hl]) (by simp only [Outstanding.completed, hl])
  | _ => exact hsame rfl rfl

theorem holds_step {f : Firmware} {g : Outstanding} (h : Reachable env f) (ht : f.app.traffic.Holds g) {e : Event}
    (ho : inOrder (f, g) e) :
    (watch env (f, g) e).1.app.traffic.Holds (watch env (f, g) e).2 ∧ (g.completed f.app e).Single (news env f e) := by
  obtain ⟨first, hreport, hfirst, hsingle⟩ := h.holds_report ht ho
  obtain ⟨new, hlog, hnew, hsingle'⟩ := hfirst.steps (step_traffics env h.linkHeld e)
  rw [news_traffic env h e, hreport, ← List.append_assoc] at hlog
  have hnews : (news env f e).filter Obs.isTraffic = new ++ first := List.append_cancel_right hlog
  constructor
  · rw [watch, ← Outstanding.afterAll_filter, hnews, Outstanding.afterAll_append]
    exact hnew
  · apply Outstanding.single_of_filter
    rw [hnews]
    exact hsingle'.append hsingle

/-- In every run that the stack keeps in order, what is under way stays as it was started, and no second operation of its
kind is started. -/
theorem one_outstanding (env : Env) (config : BleHostConfig) (started : Int) (dtr : Bool) (es : List Event)
    (hes : Runs.Along (fun p e => inOrder p e) (watch env) (boot config started dtr, .idle) es) :
    let p := Runs.run (watch env) (boot config started dtr, .idle) es
    p.2.Held p.1.app.pm ∧ ∀ e, inOrder p e → (p.2.completed p.1.app e).Single (news env p.1 e) := by
  have hrun := Runs.run_invariant_along (P := fun p : Firmware × Outstanding => Reachable env p.1 ∧ p.1.app.traffic.Holds p.2)
    (fun p e ho h => ⟨h.1.next env e, (holds_step h.1 h.2 ho).1⟩)
    ⟨⟨config, started, dtr, [], rfl⟩, Traffic.holds_idle _⟩ hes
  obtain ⟨hreach, hholds⟩ := hrun
  refine ⟨⟨fun handle data hg => (hholds.write handle data hg).2, fun hg => (hholds.exchange hg).2⟩, fun e ho => ?_⟩
  exact (holds_step hreach hholds ho).2

theorem one_outstanding_exchange :
    let p := Runs.run (watch (stackRefusing [])) (boot sampleConfig 0 true, .idle)
      [hostSends "AT+STARTCON=0x010203040506,0\r\n" 0, .connected 0, .exchange 0, .disconnected 0x13]
    p.2.Held p.1.app.pm ∧ ∀ e, inOrder p e → (p.2.completed p.1.app e).Single (news (stackRefusing []) p.1 e) :=
  one_outstanding (stackRefusing []) sampleConfig 0 true _ (by decide)

end BleAtHost.Main
