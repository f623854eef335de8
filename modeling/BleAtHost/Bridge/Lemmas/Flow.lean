import BleAtHost.Bridge.Lemmas.Link

/-!
# Flow control

The receiver is stopped exactly while the flag says so, and the queue to the peer has room for what was read.
Both hold under a condition on the history: data mode is not left while the receiver is stopped, and a chunk is
read only if the pluses held back fit with it.
-/

namespace BleAtHost.Bridge

open Main Relation

variable {b b' : Bridge}

theorem spaceGet_put_le {size : Nat} (r : RingBuf Byte size) (data : List Byte) :
    (r.put data).2.spaceGet ≤ r.spaceGet := by
  rw [RingBuf.put_spaceGet]; exact Nat.sub_le _ _

/-! ## The flag -/

theorem running_of_clear {paused : Bool} {log : List Obs} (h : ClearedRunning log) (hm : .clear paused ∈ log) :
    paused = false := by
  cases paused with
  | false => rfl
  | true => exact absurd hm h

structure Mirrored (b : Bridge) : Prop where
  irq : b.rxIrq = !b.paused
  low : b.paused → b.mode = .dataMode ∧ b.toBle.spaceGet < CONTROL_UART_RX_CHUNK

theorem Mirrored.of_running (hi : b.rxIrq = !b.paused) (hp : b.paused = false) : Mirrored b :=
  ⟨hi, fun h => by rw [hp] at h; cases h⟩

theorem Mirrored.running (h : Mirrored b) (hm : b.mode ≠ .dataMode) : b.paused = false := by
  by_contra hp
  exact hm (h.low (by simpa using hp)).1

/-- Whatever the mode and the room, `refresh` brings the flag in line. -/
theorem mirrored_refresh (h : b.rxIrq = !b.paused) : Mirrored b.refresh := by
  unfold refresh
  split
  · split
    · exact Mirrored.of_running rfl rfl
    · rename_i hp
      exact Mirrored.of_running h (by simpa using hp)
  · rename_i hm
    have hm : b.mode = .dataMode := by simpa using hm
    split
    · rename_i hs
      split
      · exact ⟨rfl, fun _ => ⟨hm, hs⟩⟩
      · exact ⟨h, fun _ => ⟨hm, hs⟩⟩
    · split
      · exact Mirrored.of_running rfl rfl
      · rename_i hp
        exact Mirrored.of_running h (by simpa using hp)

theorem Mirrored.rxKept : RxKept Mirrored where
  take _ h := ⟨h.irq, h.low⟩
  uptime _ h := ⟨h.irq, h.low⟩
  offer data h := ⟨h.irq, fun hp => ⟨(h.low hp).1, Nat.lt_of_le_of_lt (spaceGet_put_le _ data) (h.low hp).2⟩⟩
  detector _ _ _ h := ⟨h.irq, h.low⟩

theorem Mirrored.activate (h : Mirrored b) (now : Int) : Mirrored (b.activate now) := by
  rcases b.activate_cases now with he | ⟨_, _, _, _, he⟩
  · rw [he]; exact h
  · rw [he]; exact mirrored_refresh h.irq

/-- A cleared session leaves the receiver as it is; that is right only if it was running. -/
theorem Mirrored.clear (h : Mirrored b) {mode : AppState} (hc : ClearedRunning (b.clear mode).log) :
    Mirrored (b.clear mode) := by
  have hp : b.paused = false := running_of_clear hc List.mem_cons_self
  exact Mirrored.of_running (by simp [Bridge.clear, h.irq, hp]) rfl

theorem Mirrored.step (hl : Linked b) (h : Mirrored b) (hs : Step b b') (hc : ClearedRunning b'.log) :
    Mirrored b' := by
  cases hs with
  | rx byte => exact Mirrored.rxKept.rx h byte
  | refresh => exact mirrored_refresh h.irq
  | pause hm hs => exact ⟨rfl, fun _ => ⟨hm, hs⟩⟩
  | expire now =>
      have hf := Mirrored.rxKept.flush h now
      exact ⟨hf.irq, hf.low⟩
  | exit now =>
      have hn : Mirrored ((b.note (.uptime now)).note (.exit now b.toBle.data)) := ⟨h.irq, h.low⟩
      exact hn.clear hc
  | sendAccepted n k => exact mirrored_refresh h.irq
  | notify payload =>
      unfold Bridge.notify
      split
      · exact ⟨h.irq, h.low⟩
      · exact ⟨h.irq, h.low⟩
  | fillCtrl sent ring now =>
      have hf : Mirrored { b with ctrl := ring, log := .fill true sent :: b.log } := ⟨h.irq, h.low⟩
      unfold Bridge.fillCtrl
      split
      · exact hf
      · exact hf.activate now
  | activate now => exact h.activate now
  | setMode mode hm => exact Mirrored.of_running h.irq (h.running hm)
  | create conn hconn =>
      have hm := hl.not_dataMode_of_free hconn
      exact Mirrored.of_running h.irq (h.running hm)
  | connectFailed err conn hlink | connectOk conn hlink =>
      have hm := hl.not_dataMode_of_creating hlink
      exact Mirrored.of_running h.irq (h.running hm)
  | disconnect reason conn =>
      have hp : b.paused = false := running_of_clear hc List.mem_cons_self
      exact Mirrored.of_running (by simp [Bridge.disconnect, Bridge.clear, h.irq, hp]) rfl
  | _ => exact ⟨h.irq, h.low⟩

theorem Reachable.mirrored (h : Reachable b) (hc : ClearedRunning b.log) : Mirrored b := by
  obtain ⟨guardTime, started, hs⟩ := h
  have hboth : Linked b ∧ Mirrored b := by
    refine Runs.guarded_invariant (G := fun b => ClearedRunning b.log) (P := fun b => Linked b ∧ Mirrored b)
      (fun hs hc hm => hc (hs.log_suffix.subset hm)) ?_ hs
      ⟨linked_start guardTime started, Mirrored.of_running rfl rfl⟩ hc
    intro b b' hs hc h
    exact ⟨h.1.step hs, h.2.step h.1 hs hc⟩
  exact hboth.2

/-! ## Room -/

/-- Everything offered so far was stored, and there is room for `n` more. -/
structure Room (b : Bridge) (n : Nat) : Prop where
  space : n ≤ b.toBle.spaceGet
  stored : ∀ {offered stored}, .h2bPut offered stored ∈ b.log → stored = offered

theorem Room.mono {n m : Nat} (h : Room b n) (hm : m ≤ n) : Room b m := ⟨Nat.le_trans hm h.space, h.stored⟩

/-- Nothing is offered. -/
theorem Room.of_log {n : Nat} (h : Room b n) {o : Obs} (hs : b'.toBle.spaceGet = b.toBle.spaceGet)
    (hl : b'.log = o :: b.log) (ho : ∀ offered stored, o ≠ .h2bPut offered stored) : Room b' n where
  space := by rw [hs]; exact h.space
  stored hm := by
    rw [hl] at hm
    rcases List.mem_cons.mp hm with he | hm
    · exact absurd he.symm (ho _ _)
    · exact h.stored hm

theorem Room.offer {n : Nat} (h : Room b n) (data : List Byte) (hd : data.length ≤ n) :
    Room (b.offer data) (n - data.length) where
  space := by
    have := h.space
    simp only [Bridge.offer, RingBuf.put_spaceGet]; omega
  stored hm := by
    rcases List.mem_cons.mp hm with he | hm
    · cases he
      exact List.take_of_length_le (Nat.le_trans hd h.space)
    · exact h.stored hm

theorem held_of_active (ha : b.escape.active) : b.escape.held = b.escape.count := by
  simp [DataModeEscapeState.held, ha]

theorem held_of_not_active (ha : ¬b.escape.active) : b.escape.held = 0 := by
  simp [DataModeEscapeState.held, ha]

theorem Room.flush {n : Nat} (h : Room b n) (hn : b.escape.held ≤ n) (now : Int) :
    Room (b.flush now) (n - b.escape.held) ∧ (b.flush now).escape.held = 0 := by
  unfold Bridge.flush
  split
  · rename_i hf
    refine ⟨h.mono (Nat.sub_le _ _), ?_⟩
    rcases hf with ha | hc
    · exact held_of_not_active (by simpa using ha)
    · simp [DataModeEscapeState.held, hc]
  · rename_i hf
    push Not at hf
    have ha : b.escape.active := by simpa using hf.1
    rw [held_of_active ha] at hn ⊢
    have hlen : ([PLUS, PLUS, PLUS].take b.escape.count).length ≤ b.escape.count := List.length_take_le _ _
    have ho := h.offer _ (Nat.le_trans hlen hn)
    have hu : Room ((b.offer ([PLUS, PLUS, PLUS].take b.escape.count)).note (.uptime now)) _ :=
      ho.of_log rfl rfl (by simp)
    have hm := hu.mono (Nat.sub_le_sub_left hlen n)
    exact ⟨⟨hm.space, hm.stored⟩, rfl⟩

theorem Room.consider {n : Nat} (h : Room b n) (hn : 1 ≤ n) (hh : b.escape.held = 0) (byte : RxByte) :
    Room (b.consider byte) ((b.consider byte).escape.held + (n - 1)) := by
  unfold Bridge.consider
  split
  · have he : (DataModeEscapeState.held ⟨true, 1⟩) + (n - 1) = n := by
      simp only [DataModeEscapeState.held, ↓reduceIte]; omega
    rw [he]
    exact ⟨h.space, h.stored⟩
  · have ho := h.offer [byte.ch] hn
    have hz : (b.offer [byte.ch]).escape.held = 0 := hh
    rw [hz, Nat.zero_add]
    exact ⟨ho.space, ho.stored⟩

/-- The pluses held back and the rest of the chunk fit. -/
def Roomy (b : Bridge) : Prop := Room b (b.escape.held + b.chunkLeft)

theorem Roomy.take (h : Roomy b) (byte : RxByte) : Room (b.take byte) (b.escape.held + b.chunkLeft) := by
  have hu : Room (b.note (.rx byte b.escape.held b.last)) (b.escape.held + b.chunkLeft) := h.of_log rfl rfl (by simp)
  have ht : Room ((b.note (.rx byte b.escape.held b.last)).note (.uptime byte.now)) _ := hu.of_log rfl rfl (by simp)
  exact ⟨ht.space, ht.stored⟩

theorem Roomy.rx (h : Roomy b) (hc : 0 < b.chunkLeft) (byte : RxByte) : Roomy (b.rx byte) := by
  have ht := h.take byte
  unfold Bridge.rx
  split
  · rename_i ha
    rw [held_of_active ha] at ht
    split
    · -- the candidate takes the byte
      have hn : (DataModeEscapeState.held ⟨true, b.escape.count + 1⟩) + (b.chunkLeft - 1) =
          b.escape.count + b.chunkLeft := by
        simp only [DataModeEscapeState.held, ↓reduceIte]; omega
      exact ⟨Nat.le_trans (Nat.le_of_eq hn) ht.space, ht.stored⟩
    · have hheld : (b.take byte).escape.held = b.escape.count := held_of_active ha
      have hf := ht.flush (by omega) byte.flushNow
      rw [hheld, Nat.add_sub_cancel_left] at hf
      have hcons := hf.1.consider hc hf.2 byte
      refine hcons.mono ?_
      rw [consider_chunkLeft, flush_chunkLeft]
      exact Nat.le_refl _
  · rename_i ha
    have hz : (b.take byte).escape.held = 0 := held_of_not_active ha
    rw [held_of_not_active ha, Nat.zero_add] at ht
    have hcons := ht.consider hc hz byte
    refine hcons.mono ?_
    rw [consider_chunkLeft]
    exact Nat.le_refl _

/-- Nothing is held back any more and the queue did not grow. -/
theorem Roomy.of_released (h : Roomy b) (hs : b.toBle.spaceGet ≤ b'.toBle.spaceGet) (hh : b'.escape.held = 0)
    (hc : b'.chunkLeft = b.chunkLeft)
    (hst : ∀ {offered stored}, .h2bPut offered stored ∈ b'.log → .h2bPut offered stored ∈ b.log) : Roomy b' where
  space := by
    have := h.space
    rw [hh, hc]; omega
  stored hm := h.stored (hst hm)

/-- The queue did not grow and nothing is offered. -/
theorem Roomy.of_same (h : Roomy b) (hs : b.toBle.spaceGet ≤ b'.toBle.spaceGet) (hh : b'.escape = b.escape)
    (hc : b'.chunkLeft = b.chunkLeft)
    (hst : ∀ {offered stored}, .h2bPut offered stored ∈ b'.log → .h2bPut offered stored ∈ b.log) : Roomy b' where
  space := by
    have := h.space
    rw [hh, hc]; omega
  stored hm := h.stored (hst hm)

theorem Roomy.refresh (h : Roomy b) : Roomy b.refresh := by
  obtain ⟨_, _, he⟩ := b.refresh_eq
  rw [he]
  exact h.of_same (Nat.le_refl _) rfl rfl id

theorem Roomy.activate (h : Roomy b) (now : Int) : Roomy (b.activate now) := by
  rcases b.activate_cases now with he | ⟨_, _, _, _, he⟩
  · rw [he]; exact h
  · rw [he]
    refine Roomy.refresh (h.of_released (Nat.le_refl _) rfl rfl ?_)
    simp [entered]

theorem spaceGet_finish_le (b : Bridge) (n k : Nat) :
    b.toBle.spaceGet ≤ ((b.toBle.getClaim n).2.getFinish (b.chunk n k).length).2.spaceGet := by
  have hle : (b.chunk n k).length ≤ (b.toBle.getClaim n).1.length := by
    rw [chunk, List.length_take]; exact Nat.min_le_right _ _
  simp only [RingBuf.spaceGet, (RingBuf.getClaim_getFinish hle).1, List.length_drop]
  omega

theorem Roomy.step (h : Roomy b) (hs : Step b b') (hr : ReadWithRoom b'.log) : Roomy b' := by
  cases hs with
  | quiet hq =>
      refine h.of_same (Nat.le_refl _) rfl rfl ?_
      intro offered stored hm
      rcases List.mem_cons.mp hm with he | hm
      · rw [← he] at hq; exact absurd hq id
      · exact hm
  | read bytes =>
      have hread := hr (.dataRx bytes b.toBle.spaceGet b.escape.held) List.mem_cons_self
      have hfit : bytes.length + b.escape.held ≤ b.toBle.spaceGet := by simpa [Obs.readWithRoom] using hread
      refine ⟨?_, ?_⟩
      · change b.escape.held + bytes.length ≤ b.toBle.spaceGet
        omega
      · intro offered stored hm
        rcases List.mem_cons.mp hm with he | hm
        · cases he
        · exact h.stored hm
  | rx byte _ hc => exact h.rx hc byte
  | refresh => exact h.refresh
  | expire now =>
      obtain ⟨hf, hz⟩ := Room.flush h (Nat.le_add_right _ _) now
      rw [Nat.add_sub_cancel_left] at hf
      have hroomy : Roomy (b.flush now) := by
        unfold Roomy
        rw [hz, Nat.zero_add, flush_chunkLeft]; exact hf
      exact hroomy.of_same (Nat.le_refl _) rfl rfl (by simp [note, disarm])
  | exit now => exact h.of_released (Nat.le_refl _) rfl rfl (by simp [Bridge.clear, note])
  | sendFailed n k result => exact h.of_same (Nat.le_refl _) rfl rfl (by simp [Bridge.send])
  | sendAccepted n k =>
      refine Roomy.refresh (h.of_same ?_ rfl rfl (by simp [Bridge.send]))
      exact b.spaceGet_finish_le n k
  | notify payload =>
      unfold Bridge.notify
      split
      · exact h.of_same (Nat.le_refl _) rfl rfl (by simp [Bridge.putToHost, note])
      · exact h.of_same (Nat.le_refl _) rfl rfl (by simp [note])
  | fillCtrl sent ring now =>
      have hf : Roomy { b with ctrl := ring, log := .fill true sent :: b.log } :=
        h.of_same (Nat.le_refl _) rfl rfl (by simp)
      unfold Bridge.fillCtrl
      split
      · exact hf
      · exact hf.activate now
  | activate now => exact h.activate now
  | disconnect reason conn =>
      refine h.of_released ?_ rfl rfl (by simp [Bridge.disconnect, Bridge.clear])
      simp [Bridge.disconnect, Bridge.clear, RingBuf.spaceGet]
  | pause | idle | setMode | create | setReady => exact h.of_same (Nat.le_refl _) rfl rfl id
  | atRx | wait | putCtrl | ctrlLine | fillToHost | connectFailed | connectOk | enterAccepted =>
      exact h.of_same (Nat.le_refl _) rfl rfl
        (by simp [note, Bridge.putCtrl, Bridge.fillToHost, Bridge.connectFailed, Bridge.connectOk])

theorem Reachable.roomy (h : Reachable b) (hr : ReadWithRoom b.log) : Roomy b := by
  obtain ⟨guardTime, started, hs⟩ := h
  refine Runs.guarded_invariant (G := fun b => ReadWithRoom b.log) (P := Roomy)
    (fun hs hr o hm => hr o (hs.log_suffix.subset hm))
    (fun hs hr h => h.step hs hr) hs ?_ hr
  exact ⟨Nat.zero_le _, fun hm => by simp [start] at hm⟩

end BleAtHost.Bridge
