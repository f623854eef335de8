import Mathlib.Data.List.Infix
import BleAtHost.Bridge.State

/-!
# What the operations of the bridge change

Every operation has one equation or one case analysis. The invariants use these and never unfold an operation
that has branches.
-/

namespace BleAtHost.Bridge

open Main Relation

variable {b : Bridge}

theorem refresh_eq (b : Bridge) : ∃ paused rxIrq, b.refresh = { b with paused := paused, rxIrq := rxIrq } := by
  unfold refresh
  repeat' split
  all_goals exact ⟨_, _, rfl⟩

@[simp] theorem refresh_mode (b : Bridge) : b.refresh.mode = b.mode := by
  obtain ⟨_, _, h⟩ := b.refresh_eq; rw [h]
@[simp] theorem refresh_log (b : Bridge) : b.refresh.log = b.log := by
  obtain ⟨_, _, h⟩ := b.refresh_eq; rw [h]
@[simp] theorem refresh_toBle (b : Bridge) : b.refresh.toBle = b.toBle := by
  obtain ⟨_, _, h⟩ := b.refresh_eq; rw [h]

/-- The state in which data mode begins. -/
def entered (b : Bridge) (now : Int) : Bridge :=
  { b with
    pending := false
    escape := ⟨false, 0⟩
    last := now
    mode := .dataMode
    log := .enter now b.toBle.data :: .uptime now :: b.log }

theorem activate_cases (b : Bridge) (now : Int) :
    b.activate now = b ∨
      (b.pending ∧ b.mode ≠ .dataMode ∧ b.conn ≠ none ∧ b.ctrl.sizeGet = 0 ∧
        b.activate now = (b.entered now).refresh) := by
  unfold activate
  split
  · exact Or.inl rfl
  · rename_i h
    push Not at h
    split
    · exact Or.inl rfl
    · rename_i hc
      refine Or.inr ⟨by simpa using h.1, h.2.1, h.2.2, ?_, rfl⟩
      simpa using hc

theorem activate_of_dataMode (h : b.mode = .dataMode) (now : Int) : b.activate now = b := by
  rcases b.activate_cases now with he | ⟨_, hm, _⟩
  · exact he
  · exact absurd h hm

/-- Once the control queue is empty the pending switch happens. -/
theorem activate_of_pending (hp : b.pending) (hm : b.mode ≠ .dataMode) (hc : b.conn ≠ none)
    (hs : b.ctrl.sizeGet = 0) (now : Int) : b.activate now = (b.entered now).refresh := by
  simp [activate, entered, hp, hm, hc, hs]

theorem notify_of_dataMode {payload : List Byte} (h : b.mode = .dataMode) (hp : payload ≠ []) :
    b.notify payload = (b.note (.notify payload)).putToHost payload := by simp [notify, h, hp]

theorem notify_of_not (payload : List Byte) (h : b.mode = .dataMode → payload = []) :
    b.notify payload = b.note (.notify payload) := by
  unfold notify
  split
  · rename_i hn
    exact absurd (h hn.1) hn.2
  · rfl

/-! ## The receiver -/

/-- A property that the parts of the receiver keep once a byte is taken up. -/
structure OfferKept (P : Bridge → Prop) : Prop where
  uptime : ∀ {b} (now : Int), P b → P (b.note (.uptime now))
  offer : ∀ {b} (data : List Byte), P b → P (b.offer data)
  detector : ∀ {b : Bridge} (escape : DataModeEscapeState) (last : Int) (armed : Bool), P b →
    P { b with escape := escape, last := last, armed := armed }

/-- A property that the whole receiver keeps. -/
structure RxKept (P : Bridge → Prop) : Prop extends OfferKept P where
  take : ∀ {b} (byte : RxByte), P b → P (b.take byte)

theorem OfferKept.flush {P : Bridge → Prop} (k : OfferKept P) (h : P b) (now : Int) : P (b.flush now) := by
  unfold Bridge.flush
  split
  · exact h
  · exact k.detector _ _ _ (k.uptime _ (k.offer _ h))

theorem OfferKept.consider {P : Bridge → Prop} (k : OfferKept P) (h : P b) (byte : RxByte) :
    P (b.consider byte) := by
  unfold Bridge.consider
  split
  · exact k.detector _ _ _ h
  · exact k.detector (b.offer [byte.ch]).escape _ (b.offer [byte.ch]).armed (k.offer _ h)

/-- It is enough that the byte was taken up. -/
theorem OfferKept.rx {P : Bridge → Prop} (k : OfferKept P) (byte : RxByte) (h : P (b.take byte)) :
    P (b.rx byte) := by
  unfold Bridge.rx
  split
  · split
    · exact k.detector _ _ _ h
    · exact k.consider (k.flush h _) _
  · exact k.consider h _

theorem RxKept.rx {P : Bridge → Prop} (k : RxKept P) (h : P b) (byte : RxByte) : P (b.rx byte) :=
  k.toOfferKept.rx byte (k.take byte h)

/-- What the receiver leaves alone. -/
structure SameButRx (b b' : Bridge) : Prop where
  toHost : b'.toHost = b.toHost
  ctrl : b'.ctrl = b.ctrl
  mode : b'.mode = b.mode
  pending : b'.pending = b.pending
  conn : b'.conn = b.conn
  pmConn : b'.pmConn = b.pmConn
  ready : b'.ready = b.ready
  link : b'.link = b.link
  paused : b'.paused = b.paused
  rxIrq : b'.rxIrq = b.rxIrq
  guardTime : b'.guardTime = b.guardTime

theorem SameButRx.kept (b : Bridge) : RxKept (SameButRx b) where
  take _ h := { h with }
  uptime _ h := { h with }
  offer _ h := { h with }
  detector _ _ _ h := { h with }

theorem SameButRx.refl (b : Bridge) : SameButRx b b := ⟨rfl, rfl, rfl, rfl, rfl, rfl, rfl, rfl, rfl, rfl, rfl⟩

theorem SameButRx.trans {b b' b'' : Bridge} (h : SameButRx b b') (h' : SameButRx b' b'') : SameButRx b b'' where
  toHost := h'.toHost.trans h.toHost
  ctrl := h'.ctrl.trans h.ctrl
  mode := h'.mode.trans h.mode
  pending := h'.pending.trans h.pending
  conn := h'.conn.trans h.conn
  pmConn := h'.pmConn.trans h.pmConn
  ready := h'.ready.trans h.ready
  link := h'.link.trans h.link
  paused := h'.paused.trans h.paused
  rxIrq := h'.rxIrq.trans h.rxIrq
  guardTime := h'.guardTime.trans h.guardTime

theorem flush_same (b : Bridge) (now : Int) : SameButRx b (b.flush now) :=
  (SameButRx.kept b).flush (SameButRx.refl b) now

theorem rx_same (b : Bridge) (byte : RxByte) : SameButRx b (b.rx byte) :=
  (SameButRx.kept b).rx (SameButRx.refl b) byte

theorem flush_disarm (b : Bridge) (now : Int) : b.disarm.flush now = (b.flush now).disarm := by
  have he : b.disarm.escape = b.escape := rfl
  unfold flush
  rw [he]
  split
  · rfl
  · rfl

theorem flush_chunkLeft (b : Bridge) (now : Int) : (b.flush now).chunkLeft = b.chunkLeft := by
  unfold flush
  split
  · rfl
  · rfl

theorem consider_chunkLeft (b : Bridge) (byte : RxByte) : (b.consider byte).chunkLeft = b.chunkLeft := by
  unfold consider
  split
  · rfl
  · rfl

theorem rx_chunkLeft (b : Bridge) (byte : RxByte) : (b.rx byte).chunkLeft = b.chunkLeft - 1 := by
  unfold rx
  split
  · split
    · rfl
    · rw [consider_chunkLeft, flush_chunkLeft]; rfl
  · rw [consider_chunkLeft]; rfl

/-- The bytes of a chunk are taken up one by one. -/
theorem steps_rx (data : List RxByte) (hm : b.mode = .dataMode) (hc : data.length ≤ b.chunkLeft) :
    ReflTransGen Step b (data.foldl rx b) := by
  induction data generalizing b with
  | nil => exact ReflTransGen.refl
  | cons byte data ih =>
      simp only [List.length_cons] at hc
      have hstep : Step b (b.rx byte) := .rx byte hm (by omega)
      refine ReflTransGen.head hstep (ih ((b.rx_same byte).mode.trans hm) ?_)
      rw [rx_chunkLeft]; omega

/-! ## The log only grows -/

theorem suffix_note {log log' : List Obs} (h : log <:+ log') (o : Obs) : log <:+ o :: log' :=
  h.trans (List.suffix_cons o log')

theorem logKept (log : List Obs) : OfferKept fun b => log <:+ b.log where
  uptime _ h := suffix_note h _
  offer _ h := suffix_note h _
  detector _ _ _ h := h

theorem flush_log_suffix (b : Bridge) (now : Int) : b.log <:+ (b.flush now).log :=
  (logKept b.log).flush (List.suffix_refl _) now

theorem take_log_suffix (b : Bridge) (byte : RxByte) : (b.take byte).log <:+ (b.rx byte).log :=
  (logKept (b.take byte).log).rx byte (List.suffix_refl _)

theorem rx_log_suffix (b : Bridge) (byte : RxByte) : b.log <:+ (b.rx byte).log :=
  (suffix_note (List.suffix_cons _ _) _).trans (b.take_log_suffix byte)

theorem activate_log_suffix (b : Bridge) (now : Int) : b.log <:+ (b.activate now).log := by
  rcases b.activate_cases now with h | ⟨_, _, _, _, h⟩
  · rw [h]
  · rw [h, refresh_log]
    exact suffix_note (List.suffix_cons _ _) _

theorem Step.log_suffix {b b' : Bridge} (h : Step b b') : b.log <:+ b'.log := by
  cases h with
  | rx byte => exact rx_log_suffix b byte
  | refresh => rw [refresh_log]
  | expire now => exact suffix_note (flush_log_suffix b now) _
  | exit now => exact suffix_note (suffix_note (List.suffix_cons _ _) _) _
  | wait now => exact suffix_note (List.suffix_cons _ _) _
  | sendAccepted n k =>
      simp only [Bridge.sendAccepted, refresh_log]
      exact List.suffix_cons _ _
  | notify payload =>
      unfold Bridge.notify
      split
      · exact suffix_note (List.suffix_cons _ _) _
      · exact List.suffix_cons _ _
  | fillCtrl sent ring now =>
      unfold Bridge.fillCtrl
      split
      · exact List.suffix_cons _ _
      · refine List.IsSuffix.trans ?_ (activate_log_suffix _ now)
        exact List.suffix_cons _ _
  | activate now => exact activate_log_suffix b now
  | disconnect reason conn => exact suffix_note (suffix_note (List.suffix_cons _ _) _) _
  | pause | idle | setMode | create | setReady => exact List.suffix_refl _
  | _ => exact List.suffix_cons _ _

end BleAtHost.Bridge
