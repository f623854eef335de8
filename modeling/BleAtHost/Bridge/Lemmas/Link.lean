import BleAtHost.Bridge.Lemmas.Basic

/-!
# The link

Data mode, a pending switch and a ready profile all need a link that is up, and a link that is up is the one
that both the application and the profile manager hold.
-/

namespace BleAtHost.Bridge

open Main Relation

variable {b b' : Bridge}

structure Linked (b : Bridge) : Prop where
  creating : ∀ {conn}, b.link = .creating conn → b.conn = some conn
  up : ∀ {conn}, b.link = .up conn → b.conn = some conn ∧ b.pmConn = some conn
  notUp : (∀ conn, b.link ≠ .up conn) → b.ready = false ∧ b.pending = false ∧ b.mode ≠ .dataMode
  escape : b.mode ≠ .dataMode → b.escape.active = false

theorem Linked.up_of_pending (h : Linked b) (hp : b.pending) : ∃ conn, b.link = .up conn := by
  by_contra hn
  push Not at hn
  rw [(h.notUp hn).2.1] at hp
  cases hp

theorem Linked.up_of_ready (h : Linked b) (hr : b.ready) : ∃ conn, b.link = .up conn := by
  by_contra hn
  push Not at hn
  rw [(h.notUp hn).1] at hr
  cases hr

theorem Linked.up_of_dataMode (h : Linked b) (hm : b.mode = .dataMode) : ∃ conn, b.link = .up conn := by
  by_contra hn
  push Not at hn
  exact (h.notUp hn).2.2 hm

theorem Linked.conn_of_pending (h : Linked b) (hp : b.pending) : b.conn ≠ none := by
  obtain ⟨conn, hl⟩ := h.up_of_pending hp
  rw [(h.up hl).1]; exact Option.some_ne_none _

theorem Linked.dataMode_of_active (h : Linked b) (ha : b.escape.active) : b.mode = .dataMode := by
  by_contra hm
  rw [h.escape hm] at ha
  cases ha

theorem Linked.not_dataMode_of_creating (h : Linked b) {conn : Conn} (hl : b.link = .creating conn) :
    b.mode ≠ .dataMode := by
  intro hm
  obtain ⟨conn', hu⟩ := h.up_of_dataMode hm
  rw [hu] at hl
  cases hl

theorem Linked.not_dataMode_of_free (h : Linked b) (hc : b.conn = none) : b.mode ≠ .dataMode := by
  intro hm
  obtain ⟨conn', hu⟩ := h.up_of_dataMode hm
  rw [(h.up hu).1] at hc
  cases hc

theorem linked_start (guardTime : Nat) (started : Int) : Linked (start guardTime started) where
  creating h := by cases h
  up h := by cases h
  notUp _ := ⟨rfl, rfl, by simp [start]⟩
  escape _ := rfl

/-- A step that leaves the link and the mode alone. -/
theorem Linked.of_same (h : Linked b) (hl : b'.link = b.link) (hc : b'.conn = b.conn)
    (hpc : b'.pmConn = b.pmConn) (hr : b'.ready = b.ready) (hp : b'.pending = b.pending)
    (hm : b'.mode = b.mode) (he : b'.mode ≠ .dataMode → b'.escape.active = false) : Linked b' where
  creating hl' := by rw [hc]; exact h.creating (hl ▸ hl')
  up hl' := by rw [hc, hpc]; exact h.up (hl ▸ hl')
  notUp hn := by rw [hr, hp, hm]; exact h.notUp (fun conn => hl ▸ hn conn)
  escape := he

theorem Linked.of_same_rx (h : Linked b) (s : SameButRx b b') (hm : b.mode = .dataMode) : Linked b' :=
  h.of_same s.link s.conn s.pmConn s.ready s.pending s.mode
    (fun hm' => absurd (s.mode.trans hm) hm')

theorem Linked.refresh (h : Linked b) : Linked b.refresh := by
  obtain ⟨_, _, he⟩ := b.refresh_eq
  rw [he]
  exact h.of_same rfl rfl rfl rfl rfl rfl h.escape

theorem Linked.activate (h : Linked b) (now : Int) : Linked (b.activate now) := by
  rcases b.activate_cases now with he | ⟨hp, _, _, _, he⟩
  · rw [he]; exact h
  · obtain ⟨conn, hl⟩ := h.up_of_pending hp
    rw [he]
    exact Linked.refresh
      { creating := h.creating
        up := h.up
        notUp := fun hn => absurd hl (hn conn)
        escape := fun hm => absurd rfl hm }

theorem Linked.step (h : Linked b) (hs : Step b b') : Linked b' := by
  cases hs with
  | rx byte hm => exact h.of_same_rx (b.rx_same byte) hm
  | refresh => exact h.refresh
  | expire now ha =>
      have hf : Linked (b.flush now) := h.of_same_rx (b.flush_same now) (h.dataMode_of_active ha)
      exact hf.of_same rfl rfl rfl rfl rfl rfl hf.escape
  | exit now mode ha _ _ hm =>
      obtain ⟨conn, hl⟩ := h.up_of_dataMode (h.dataMode_of_active ha)
      exact ⟨h.creating, h.up, fun hn => absurd hl (hn conn), fun _ => rfl⟩
  | sendAccepted n k => exact Linked.refresh (h.of_same rfl rfl rfl rfl rfl rfl h.escape)
  | notify payload =>
      unfold Bridge.notify
      split
      · exact h.of_same rfl rfl rfl rfl rfl rfl h.escape
      · exact h.of_same rfl rfl rfl rfl rfl rfl h.escape
  | fillCtrl sent ring now =>
      have hf : Linked { b with ctrl := ring, log := .fill true sent :: b.log } :=
        h.of_same rfl rfl rfl rfl rfl rfl h.escape
      unfold Bridge.fillCtrl
      split
      · exact hf
      · exact hf.activate now
  | activate now => exact h.activate now
  | setMode mode hm hm' =>
      exact ⟨h.creating, h.up, fun hn => ⟨(h.notUp hn).1, (h.notUp hn).2.1, hm'⟩, fun _ => h.escape hm⟩
  | create conn hc =>
      -- no connection is held, so there is no link, and without a link nothing is ready or pending
      have hn : ∀ conn, b.link ≠ .up conn := by
        intro conn' hl
        rw [(h.up hl).1] at hc
        cases hc
      obtain ⟨hr, hp, hm⟩ := h.notUp hn
      exact
        { creating := fun hl => by cases hl; rfl
          up := fun hl => by cases hl
          notUp := fun _ => ⟨hr, hp, by simp⟩
          escape := fun _ => h.escape hm }
  | connectFailed err conn hl =>
      have hn : ∀ conn', b.link ≠ .up conn' := fun conn' hu => by rw [hl] at hu; cases hu
      obtain ⟨hr, hp, hm⟩ := h.notUp hn
      exact
        { creating := fun hl => by cases hl
          up := fun hl => by cases hl
          notUp := fun _ => ⟨hr, hp, by simp [Bridge.connectFailed]⟩
          escape := fun _ => h.escape hm }
  | connectOk conn hl =>
      have hn : ∀ conn', b.link ≠ .up conn' := fun conn' hu => by rw [hl] at hu; cases hu
      obtain ⟨_, _, hm⟩ := h.notUp hn
      exact
        { creating := fun hl' => by cases hl'
          up := fun hl' => by cases hl'; exact ⟨h.creating hl, rfl⟩
          notUp := fun hn' => absurd rfl (hn' conn)
          escape := fun _ => h.escape hm }
  | setReady ready conn hl =>
      exact ⟨h.creating, h.up, fun hn => absurd hl (hn conn), h.escape⟩
  | enterAccepted hr hc hm hp =>
      obtain ⟨conn, hl⟩ := h.up_of_ready hr
      exact ⟨h.creating, h.up, fun hn => absurd hl (hn conn), h.escape⟩
  | disconnect reason conn hl =>
      exact
        { creating := fun hl => by cases hl
          up := fun hl => by cases hl
          notUp := fun _ => ⟨rfl, rfl, by simp [Bridge.disconnect, clear]⟩
          escape := fun _ => rfl }
  | _ => exact h.of_same rfl rfl rfl rfl rfl rfl h.escape

theorem Linked.steps (h : Linked b) (hs : ReflTransGen Step b b') : Linked b' :=
  Runs.invariant (fun hs h => h.step hs) hs h

theorem Reachable.linked (h : Reachable b) : Linked b := by
  obtain ⟨guardTime, started, hs⟩ := h
  exact (linked_start guardTime started).steps hs

end BleAtHost.Bridge
