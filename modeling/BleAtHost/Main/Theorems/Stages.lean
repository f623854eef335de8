import BleAtHost.Main.Lemmas.Alive

/-!
# The stages of every run

The application makes only the calls, and queues only the lines, that its stage allows. What follows of the
references to connections and of what the queued lines say of the link.
-/

namespace BleAtHost.Main

variable {env : Env} {conn : Conn}

/-- The monitor accepts every run and stands where the variables and the link stand. -/
theorem stages_followed (env : Env) {f : Firmware} (h : Reachable env f) : stageOf f.app.log = some f.app.stage :=
  h.alive.stage

/-- A connection that is lost in data mode. -/
theorem stages_followed_lost :
    stageOf (runDataMode (stackRefusing []) [.notify (some (ascii "x")), .disconnected 8]).app.log =
      some (runDataMode (stackRefusing []) [.notify (some (ascii "x")), .disconnected 8]).app.stage :=
  stages_followed _ (reachable_runDataMode _ _)

/-! ## References -/

/-- `bt_conn_le_create` has handed out the connection, and its reference is not given back. -/
def Held (conn : Conn) (log : List Obs) : Prop :=
  log.countP (Obs.obtains conn) = 1 ∧ log.countP (Obs.releases conn) = 0

/-- The references that a stage accounts for. -/
def Counted (log : List Obs) (stage : Stage) : Prop :=
  ∀ conn, log.countP (Obs.obtains conn) =
    log.countP (Obs.releases conn) + if stage.conn = some conn then 1 else 0

/-- A call on a connection is expected only on the one that is held. -/
theorem Stage.call_named {stage stage' : Stage} {call : StackCall} {result : Int} (h : stage.call call result = some stage')
    (hc : call.onConnection = true) : ∃ conn, call.named = some conn ∧ stage.conn = some conn := by
  unfold Stage.call at h
  split at h
  · cases hc
  · cases hc
  · cases hc
  · cases hc
  · cases hc
  · split at h
    · rename_i conn named he
      exact ⟨named, rfl, congrArg some he⟩
    · cases h
  · split at h
    · rename_i conn named _ _ _ _ he
      exact ⟨named, rfl, congrArg some he⟩
    · cases h
  · split at h
    · rename_i conn _ named he
      exact ⟨named, rfl, congrArg some he⟩
    · cases h
  · split at h
    · rename_i he
      exact ⟨_, he, rfl⟩
    · cases h
  · cases h

/-- Only `bt_conn_le_create` changes what is held. -/
theorem Stage.call_conn {stage stage' : Stage} {call : StackCall} {result : Int} (h : stage.call call result = some stage')
    (hc : ∀ conn a b c d, call ≠ .connCreate conn a b c d) : stage'.conn = stage.conn := by
  unfold Stage.call at h
  split at h
  case h_4 | h_5 => exact absurd rfl (hc _ _ _ _ _)
  all_goals try split at h
  all_goals cases h
  all_goals rfl

theorem Stage.call_create {stage stage' : Stage} {result : Int} {a b c d : Nat}
    (h : stage.call (.connCreate conn a b c d) result = some stage') :
    stage.conn = none ∧ stage'.conn = if result = 0 then some conn else none := by
  cases stage with
  | idle | stopped =>
      cases h
      refine ⟨rfl, ?_⟩
      split
      · rfl
      · rfl
  | up held use => simp [Stage.call, StackCall.named] at h
  | _ => cases h

/-- A line changes nothing of what is held. -/
theorem Stage.speak_conn {stage stage' : Stage} {sp : Speech} (h : stage.speak sp = some stage') :
    stage'.conn = stage.conn := by
  unfold Stage.speak at h
  split at h
  all_goals cases h
  all_goals rfl

theorem Counted.same {log : List Obs} {stage stage' : Stage} {o : Obs} (h : Counted log stage)
    (hc : stage'.conn = stage.conn) (ho : ∀ conn, o.obtains conn = false) (hr : ∀ conn, o.releases conn = false) :
    Counted (o :: log) stage' := by
  intro conn
  rw [List.countP_cons_of_neg (by simp [ho]), List.countP_cons_of_neg (by simp [hr]), hc]
  exact h conn

theorem Counted.released {log : List Obs} {stage stage' : Stage} {held : Conn} (h : Counted log stage)
    (hc : stage.conn = some held) (hc' : stage'.conn = none) : Counted (.connUnref held :: log) stage' := by
  intro conn
  rw [List.countP_cons_of_neg (by simp [Obs.obtains]), h conn, List.countP_cons, hc, hc']
  simp [Obs.releases]

theorem Counted.created {log : List Obs} {stage stage' : Stage} {result : Int} {a b c d : Nat} (h : Counted log stage)
    (ho : stage.call (.connCreate conn a b c d) result = some stage') :
    Counted (.stack (.connCreate conn a b c d) result :: log) stage' := by
  obtain ⟨hc, hc'⟩ := Stage.call_create ho
  intro other
  rw [List.countP_cons, h other, List.countP_cons_of_neg (by simp [Obs.releases]), hc, hc']
  by_cases hr : result = 0
  · simp [Obs.obtains, hr]
  · simp [Obs.obtains, hr]

theorem Counted.next {log : List Obs} {stage stage' : Stage} {o : Obs} (h : Counted log stage)
    (ho : stage.next o = some stage') : Counted (o :: log) stage' := by
  cases o with
  | stack call result =>
      have hcall : stage.call call result = some stage' := ho
      cases call with
      | connCreate conn a b c d => exact h.created hcall
      | _ => exact h.same (Stage.call_conn hcall (by simp)) (fun _ => rfl) fun _ => rfl
  | ctrlLine line whole =>
      obtain ⟨sp, _, hsp⟩ := Option.bind_eq_some_iff.mp ho
      exact h.same (Stage.speak_conn hsp) (fun _ => rfl) fun _ => rfl
  | connected err =>
      cases stage with
      | creating conn =>
          have hstage : stage' = if err = 0 then .opened conn else .failed conn := (Option.some.inj ho).symm
          refine h.same ?_ (fun _ => rfl) fun _ => rfl
          rw [hstage]
          split
          · rfl
          · rfl
      | _ => cases ho
  | connUnref conn =>
      cases stage with
      | failed held | ending held =>
          have hheld : (if conn = held then _ else none) = some stage' := ho
          split at hheld
          · rename_i he
            subst he
            cases hheld
            exact h.released rfl rfl
          · cases hheld
      | _ => cases ho
  | disconnected reason =>
      cases stage with
      | released =>
          cases ho
          exact h.same rfl (fun _ => rfl) fun _ => rfl
      | _ => cases ho
  | enterAccepted | enter _ _ | exit _ _ | notify _ | b2hPut _ _ =>
      cases stage with
      | up conn use =>
          cases use with
          | _ =>
              cases ho
              try exact h.same rfl (fun _ => rfl) fun _ => rfl
      | _ => cases ho
  | _ =>
      cases ho
      exact h.same rfl (fun _ => rfl) fun _ => rfl

theorem counted_of_stageOf {log : List Obs} {stage : Stage} (h : stageOf log = some stage) : Counted log stage :=
  Monitor.watch_invariant (P := Counted) (fun _ => rfl) (fun _ _ _ _ hc ho => hc.next ho) h

/-- Every call on a connection names the one whose reference is held, and a connection is created while none is. -/
theorem calls_on_held (env : Env) {f : Firmware} (h : Reachable env f) {newer before : List Obs} {call : StackCall}
    {result : Int} (hlog : f.app.log = newer ++ .stack call result :: before) :
    (call.onConnection → ∃ conn, call.named = some conn ∧ Held conn before) ∧
      ∀ conn a b c d, call = .connCreate conn a b c d →
        ∀ other, before.countP (Obs.obtains other) = before.countP (Obs.releases other) := by
  have hstage := h.alive.stage
  rw [hlog] at hstage
  obtain ⟨stage, stage', hbefore, hcall⟩ := Monitor.expected hstage
  have hcounted : Counted before stage := counted_of_stageOf hbefore
  refine ⟨fun hon => ?_, ?_⟩
  · obtain ⟨conn, hnamed, hheld⟩ := Stage.call_named hcall hon
    have hcount := hcounted conn
    rw [if_pos hheld] at hcount
    have honce : before.countP (Obs.obtains conn) ≤ 1 := by
      have hsublist : before.Sublist f.app.log := by
        rw [hlog]
        exact (List.sublist_cons_self _ before).trans (List.sublist_append_right newer _)
      exact (hsublist.countP_le (p := Obs.obtains conn)).trans (h.connectionKept.once conn)
    exact ⟨conn, hnamed, by omega, by omega⟩
  · rintro conn a b c d rfl other
    have hcount := hcounted other
    rw [(Stage.call_create hcall).1] at hcount
    simpa using hcount

/-- The subscription of a connection. -/
theorem calls_on_held_subscribe : Held ⟨0, ⟨[6, 5, 4, 3, 2, 1], 0⟩⟩ ((runReady (stackRefusing []) []).app.log.drop 5) := by
  have hlog : (runReady (stackRefusing []) []).app.log =
      (runReady (stackRefusing []) []).app.log.take 4 ++
        .stack (.gattSubscribe (some ⟨0, ⟨[6, 5, 4, 3, 2, 1], 0⟩⟩) 3) 0 :: (runReady (stackRefusing []) []).app.log.drop 5 := by
    decide +kernel
  obtain ⟨conn, hnamed, hheld⟩ := (calls_on_held (stackRefusing []) (reachable_runReady _ _) hlog).1 rfl
  cases hnamed
  exact hheld

/-! ## The view of the host -/

theorem Stage.speak_view {stage stage' : Stage} {sp : Speech} (h : stage.speak sp = some stage') :
    stage.view.hear sp = some stage'.view := by
  unfold Stage.speak at h
  split at h
  all_goals cases h
  all_goals rfl

theorem Stage.call_view {stage stage' : Stage} {call : StackCall} {result : Int} (h : stage.call call result = some stage') :
    stage'.view = stage.view := by
  unfold Stage.call at h
  split at h
  all_goals try split at h
  all_goals cases h
  all_goals rfl

/-- Only the lines change the view. -/
theorem Stage.view_next {stage stage' : Stage} {o : Obs} (h : stage.next o = some stage') :
    o.line.elim (some stage.view) stage.view.next = some stage'.view := by
  cases o with
  | stack call result => exact congrArg some (Stage.call_view h).symm
  | ctrlLine line whole =>
      obtain ⟨sp, hsaid, hsp⟩ := Option.bind_eq_some_iff.mp h
      change (speech line).bind stage.view.hear = _
      rw [hsaid]
      exact Stage.speak_view hsp
  | connected err =>
      cases stage with
      | creating conn =>
          have hstage : stage' = if err = 0 then .opened conn else .failed conn := (Option.some.inj h).symm
          rw [hstage]
          split
          · rfl
          · rfl
      | _ => cases h
  | connUnref conn =>
      cases stage with
      | failed held | ending held =>
          have hheld : (if conn = held then _ else none) = some stage' := h
          split at hheld
          · cases hheld
            rfl
          · cases hheld
      | _ => cases h
  | disconnected reason =>
      cases stage with
      | released =>
          cases h
          rfl
      | _ => cases h
  | enterAccepted | enter _ _ | exit _ _ | notify _ | b2hPut _ _ =>
      cases stage with
      | up conn use =>
          cases use with
          | _ =>
              cases h
              try rfl
      | _ => cases h
  | _ =>
      cases h
      rfl

theorem stage_view (s : App) : s.stage.view = s.link.view := by
  unfold App.stage
  cases s.link with
  | down =>
      dsimp only
      split
      · rfl
      · rfl
  | creating conn => rfl
  | up conn => rfl

/-- The lines that were queued tell at any time whether the link is up. Every line about a connection is queued between the
line that announces it and the line that announces its end, and every line of a scan outside. A host knows as much
only if no line was dropped or cut by a full ring. -/
theorem lines_tell_link (env : Env) {f : Firmware} (h : Reachable env f) :
    Monitor.watch LinkView.next .down (controlLines f.app.log) = some f.app.link.view := by
  rw [← stage_view]
  exact Monitor.watch_filterMap Stage.view Obs.line (fun _ _ _ => Stage.view_next) h.alive.stage

theorem lines_tell_link_lost :
    Monitor.watch LinkView.next .down (controlLines (runReady (stackRefusing []) [.disconnected 8]).app.log) = some .down :=
  lines_tell_link _ (reachable_runReady _ _)

end BleAtHost.Main
