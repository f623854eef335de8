import BleAtHost.Bridge.Lemmas.Basic
import BleAtHost.Main.Lines

/-!
# The queues to the host

What was put in a queue to the host is what the transmitter accepted of it, followed by what waits. The control queue
is never reset, the data queue is at the end of every session.
-/

namespace BleAtHost

namespace Main

/-- Bytes that were put in `ctrl_tx_ring`. -/
def Obs.ctrlStored : Obs → List Byte
  | .ctrlPut _ stored => stored
  | _ => []

/-- Bytes that were put in `ble_to_host_ring`. -/
def Obs.hostStored : Obs → List Byte
  | .b2hPut _ stored => stored
  | _ => []

/-- Bytes of the data queue that `uart_fifo_fill` accepted. -/
def Obs.hostFilled : Obs → List Byte
  | .fill false bytes => bytes
  | _ => []

/-- Since a session was cleared. -/
@[simp] def sinceClear : List Obs → List Obs
  | [] => []
  | .clear _ :: _ => []
  | o :: log => o :: sinceClear log

/-- What changes a queue to the host. -/
def Obs.atOutlet : Obs → Bool
  | .ctrlPut _ _ | .b2hPut _ _ | .fill _ _ | .clear _ => true
  | _ => false

theorem sinceClear_cons {o : Obs} (h : ∀ paused, o ≠ .clear paused) (log : List Obs) :
    sinceClear (o :: log) = o :: sinceClear log := by
  cases o with
  | clear paused => exact absurd rfl (h paused)
  | _ => rfl

end Main

namespace Bridge

open Main Relation

variable {b b' : Bridge}

/-! ## One queue -/

/-- What was put is what was taken followed by what waits. -/
structure Fifo {size : Nat} (stored taken : Obs → List Byte) (log : List Obs) (ring : RingBuf Byte size) : Prop where
  claimed : ring.claimed = 0
  order : collect stored log = collect taken log ++ ring.data

section
variable {size : Nat} {stored taken : Obs → List Byte} {log : List Obs} {ring : RingBuf Byte size} {o : Obs}

theorem Fifo.quiet (h : Fifo stored taken log ring) (hs : stored o = []) (ht : taken o = []) :
    Fifo stored taken (o :: log) ring where
  claimed := h.claimed
  order := by rw [collect, collect, hs, ht, List.append_nil, List.append_nil, h.order]

theorem Fifo.put (h : Fifo stored taken log ring) {data : List Byte} (hs : stored o = data.take ring.spaceGet)
    (ht : taken o = []) : Fifo stored taken (o :: log) (ring.put data).2 where
  claimed := h.claimed
  order := by rw [collect, collect, hs, ht, h.order, List.append_nil, RingBuf.put_data, List.append_assoc]

theorem Fifo.take (h : Fifo stored taken log ring) {sent : List Byte} {ring' : RingBuf Byte size}
    (hr : ring.Takes sent ring') (hs : stored o = []) (ht : taken o = sent) : Fifo stored taken (o :: log) ring' where
  claimed := (hr h.claimed).2
  order := by rw [collect, collect, hs, ht, List.append_nil, List.append_assoc, (hr h.claimed).1, h.order]

end

/-! ## Both queues -/

structure Outlets (b : Bridge) : Prop where
  ctrl : Fifo Obs.ctrlStored Obs.ctrlFilled b.log b.ctrl
  toHost : Fifo Obs.hostStored Obs.hostFilled (sinceClear b.log) b.toHost

theorem Outlets.of_same (h : Outlets b) (hc : b'.ctrl = b.ctrl) (ht : b'.toHost = b.toHost) (hl : b'.log = b.log) :
    Outlets b' where
  ctrl := by rw [hl, hc]; exact h.ctrl
  toHost := by rw [hl, ht]; exact h.toHost

theorem Outlets.of_note (h : Outlets b) {o : Obs} (ho : o.atOutlet = false) (hc : b'.ctrl = b.ctrl)
    (ht : b'.toHost = b.toHost) (hl : b'.log = o :: b.log) : Outlets b' := by
  have hclear : sinceClear (o :: b.log) = o :: sinceClear b.log :=
    sinceClear_cons (fun paused he => by rw [he] at ho; cases ho) b.log
  have hnone : o.ctrlStored = [] ∧ o.ctrlFilled = [] ∧ o.hostStored = [] ∧ o.hostFilled = [] := by
    cases o with
    | ctrlPut | b2hPut | fill | clear => cases ho
    | _ => exact ⟨rfl, rfl, rfl, rfl⟩
  obtain ⟨hcs, hcf, hhs, hhf⟩ := hnone
  constructor
  · rw [hl, hc]
    exact h.ctrl.quiet hcs hcf
  · rw [hl, ht, hclear]
    exact h.toHost.quiet hhs hhf

theorem Outlets.refresh (h : Outlets b) : Outlets b.refresh := by
  obtain ⟨_, _, he⟩ := b.refresh_eq
  rw [he]
  exact h.of_same rfl rfl rfl

theorem Outlets.activate (h : Outlets b) (now : Int) : Outlets (b.activate now) := by
  rcases b.activate_cases now with he | ⟨_, _, _, _, he⟩
  · rw [he]; exact h
  · rw [he]
    have hread : Outlets (b.note (.uptime now)) := h.of_note rfl rfl rfl rfl
    have hentered : Outlets (b.entered now) := hread.of_note (o := .enter now b.toBle.data) rfl rfl rfl rfl
    exact hentered.refresh

theorem outletsKept : RxKept Outlets where
  take byte h :=
    have htaken : Outlets (Bridge.note _ (.rx byte _ _)) := h.of_note rfl rfl rfl rfl
    htaken.of_note (o := .uptime byte.now) rfl rfl rfl rfl
  uptime _ h := h.of_note rfl rfl rfl rfl
  offer _ h := h.of_note (o := .h2bPut _ _) rfl rfl rfl rfl
  detector _ _ _ h := h.of_same rfl rfl rfl

theorem Outlets.notify (h : Outlets b) (payload : List Byte) : Outlets (b.notify payload) := by
  have hnote : Outlets (b.note (.notify payload)) := h.of_note rfl rfl rfl rfl
  unfold Bridge.notify
  split
  · exact ⟨hnote.ctrl.quiet rfl rfl, hnote.toHost.put rfl rfl⟩
  · exact hnote

theorem Outlets.fillCtrl (h : Outlets b) {sent : List Byte} {ring : RingBuf Byte CTRL_TX_RING_SIZE}
    (ht : b.ctrl.Takes sent ring) (now : Int) : Outlets (b.fillCtrl sent ring now) := by
  have hfilled : Outlets { b with ctrl := ring, log := .fill true sent :: b.log } :=
    ⟨h.ctrl.take ht rfl rfl, h.toHost.quiet rfl rfl⟩
  unfold Bridge.fillCtrl
  split
  · exact hfilled
  · exact hfilled.activate now

/-- The data queue is empty where the log says that a session was cleared. -/
theorem Outlets.clear (h : Outlets b) (mode : AppState) : Outlets (b.clear mode) :=
  ⟨h.ctrl.quiet rfl rfl, ⟨rfl, rfl⟩⟩

theorem Outlets.step (h : Outlets b) (hs : Step b b') : Outlets b' := by
  cases hs with
  | quiet hq =>
      refine h.of_note ?_ rfl rfl rfl
      cases ‹Obs› with
      | ctrlPut | b2hPut | fill | clear => exact absurd hq id
      | _ => rfl
  | atRx bytes => exact h.of_note rfl rfl rfl rfl
  | read bytes => exact h.of_note (o := .dataRx bytes _ _) rfl rfl rfl rfl
  | rx byte => exact outletsKept.rx h byte
  | refresh => exact h.refresh
  | wait now =>
      have hread : Outlets (b.note (.uptime now)) := h.of_note rfl rfl rfl rfl
      exact hread.of_note rfl rfl rfl rfl
  | expire now =>
      have hguard : Outlets ((b.flush now).note (.guard now)) := (outletsKept.flush h now).of_note rfl rfl rfl rfl
      exact hguard.of_same rfl rfl rfl
  | exit now mode =>
      have hread : Outlets (b.note (.uptime now)) := h.of_note rfl rfl rfl rfl
      have hleft : Outlets ((b.note (.uptime now)).note (.exit now b.toBle.data)) := hread.of_note rfl rfl rfl rfl
      exact hleft.clear mode
  | sendFailed n k result => exact h.of_note (o := .write _ result _) rfl rfl rfl rfl
  | sendAccepted n k =>
      have hsent : Outlets { b.send n k 0 with toBle := ((b.toBle.getClaim n).2.getFinish (b.chunk n k).length).2 } :=
        h.of_note (o := .write _ 0 _) rfl rfl rfl rfl
      exact hsent.refresh
  | putCtrl data => exact ⟨h.ctrl.put rfl rfl, h.toHost.quiet rfl rfl⟩
  | ctrlLine line whole => exact h.of_note rfl rfl rfl rfl
  | notify payload => exact h.notify payload
  | fillCtrl sent ring now ht => exact h.fillCtrl ht now
  | fillToHost sent ring ht => exact ⟨h.ctrl.quiet rfl rfl, h.toHost.take ht rfl rfl⟩
  | activate now => exact h.activate now
  | connectFailed err => exact h.of_note (o := .connected err) rfl rfl rfl rfl
  | connectOk conn => exact h.of_note (o := .connected 0) rfl rfl rfl rfl
  | enterAccepted => exact h.of_note (o := .enterAccepted) rfl rfl rfl rfl
  | disconnect reason =>
      have hlost : Outlets (b.note (.disconnected reason)) := h.of_note rfl rfl rfl rfl
      have hreset : Outlets
          { b with
            link := .down
            conn := none
            pmConn := none
            ready := false
            toBle := .empty
            log := .h2bReset :: .disconnected reason :: b.log } :=
        hlost.of_note (o := .h2bReset) rfl rfl rfl rfl
      exact hreset.clear .idle
  | _ => exact h.of_same rfl rfl rfl

theorem Reachable.outlets (h : Reachable b) : Outlets b := by
  obtain ⟨guardTime, started, hs⟩ := h
  exact Runs.invariant (P := Outlets) (fun hs h => h.step hs) hs ⟨⟨rfl, rfl⟩, ⟨rfl, rfl⟩⟩

end Bridge

end BleAtHost
