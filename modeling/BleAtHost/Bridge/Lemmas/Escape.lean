import BleAtHost.Bridge.Lemmas.Link

/-!
# Escape detection

In a session the bridge is a `Detector` that replays what the log shows of the host, and what the detector
releases is what the queue to the peer is offered.
-/

namespace BleAtHost.Bridge

open Main Relation

variable {b b' : Bridge}

def escapeConfig (guardTime : Nat) : Detector.Config Byte := ⟨PLUS, 3, guardTime⟩

def detector (b : Bridge) : Detector.State := ⟨b.escape.held, b.last⟩

/-- The detector after what the log shows of the session. -/
def replayed (guardTime : Nat) (log : List Obs) : Detector.State :=
  Detector.replay (escapeConfig guardTime) (sessionStart log) (history (session log))

/-- The detector is in the state `d` and what it released is what was offered. -/
structure Follows (guardTime : Nat) (d : Detector.State) (log : List Obs) : Prop where
  state : replayed guardTime log = d
  offered : collect Obs.offered (session log) =
    Detector.released (escapeConfig guardTime) (sessionStart log) (history (session log))

/-- Observations that the detector does not see. -/
def Unseen : Obs → Prop
  | .rx _ _ _ | .guard _ | .h2bPut _ _ | .enter _ _ | .exit _ _ => False
  | _ => True

theorem Follows.unseen {guardTime : Nat} {d : Detector.State} {log : List Obs} (h : Follows guardTime d log)
    {o : Obs} (ho : Unseen o) : Follows guardTime d (o :: log) := by
  obtain ⟨h1, h2⟩ := h
  unfold replayed at h1
  cases o with
  | rx | guard | h2bPut | enter | exit => exact absurd ho id
  | _ => exact ⟨by simpa [replayed] using h1, by simpa [Obs.offered] using h2⟩

/-! ## The parts of a session that one operation adds -/

/-- From `log` to `log'` the host showed `inputs` and the queue was offered `out`. -/
structure Adds (log log' : List Obs) (inputs : List (Detector.Input Byte)) (out : List Byte) : Prop where
  history : history (session log') = inputs ++ history (session log)
  offered : collect Obs.offered (session log') = collect Obs.offered (session log) ++ out
  start : sessionStart log' = sessionStart log

theorem Adds.trans {l l' l'' : List Obs} {is is' : List (Detector.Input Byte)} {out out' : List Byte}
    (h : Adds l l' is out) (h' : Adds l' l'' is' out') : Adds l l'' (is' ++ is) (out ++ out') where
  history := by rw [h'.history, h.history, List.append_assoc]
  offered := by rw [h'.offered, h.offered, List.append_assoc]
  start := h'.start.trans h.start

theorem adds_uptime (now : Int) (log : List Obs) : Adds log (.uptime now :: log) [] [] := by
  constructor <;> simp [Obs.offered]

theorem adds_put (data stored : List Byte) (log : List Obs) : Adds log (.h2bPut data stored :: log) [] data := by
  constructor <;> simp [Obs.offered]

theorem adds_take (b : Bridge) (byte : RxByte) :
    Adds b.log (b.take byte).log [.rx byte.ch byte.now byte.flushNow] [] := by
  constructor <;> simp [Bridge.take, Obs.offered]

theorem adds_guard (now : Int) (log : List Obs) : Adds log (.guard now :: log) [.fire now] [] := by
  constructor <;> simp [Obs.offered]

/-- At most three pluses are held back, and at least one while a candidate is active. -/
def Counted (b : Bridge) : Prop := b.escape.active → 0 < b.escape.count ∧ b.escape.count ≤ 3

theorem held_eq (b : Bridge) : b.detector.held = if b.escape.active then b.escape.count else 0 := rfl

theorem Counted.held_zero (h : Counted b) : b.detector.held = 0 ↔ ¬b.escape.active := by
  rw [held_eq]
  split
  · rename_i ha
    have := (h ha).1
    constructor
    · intro hz; omega
    · intro hn; exact absurd ha hn
  · rename_i ha
    exact ⟨fun _ => ha, fun _ => rfl⟩

theorem take_pluses {n : Nat} (h : n ≤ 3) : [PLUS, PLUS, PLUS].take n = List.replicate n PLUS := by
  rcases n with _ | _ | _ | _ | n
  · rfl
  · rfl
  · rfl
  · rfl
  · omega

theorem flush_detector (h : Counted b) (now : Int) :
    (b.flush now).detector = (Detector.flush (escapeConfig b.guardTime) b.detector now).1 ∧
      Adds b.log (b.flush now).log [] (Detector.flush (escapeConfig b.guardTime) b.detector now).2 ∧
      ¬(b.flush now).escape.active := by
  unfold Bridge.flush Detector.flush
  by_cases ha : b.escape.active
  · obtain ⟨hpos, hle⟩ := h ha
    have hz : ¬b.detector.held = 0 := fun hz => h.held_zero.mp hz ha
    have hc : ¬((!b.escape.active) = true ∨ b.escape.count = 0) := by
      rintro (hn | hn)
      · simp [ha] at hn
      · omega
    have hheld : b.detector.held = b.escape.count := by simp [held_eq, ha]
    rw [if_neg hc, if_neg hz, hheld, take_pluses hle]
    have hadds := (adds_put (List.replicate b.escape.count PLUS)
      ((List.replicate b.escape.count PLUS).take b.toBle.spaceGet) b.log).trans (adds_uptime now _)
    simp only [List.append_nil] at hadds
    exact ⟨rfl, hadds, by simp⟩
  · have hz : b.detector.held = 0 := h.held_zero.mpr ha
    have hc : (!b.escape.active) = true ∨ b.escape.count = 0 := Or.inl (by simpa using ha)
    rw [if_pos hc, if_pos hz]
    exact ⟨rfl, ⟨rfl, by simp, rfl⟩, ha⟩

theorem flush_of_active (h : Counted b) (ha : b.escape.active) (now : Int) :
    b.flush now =
      { (b.offer ([PLUS, PLUS, PLUS].take b.escape.count)).note (.uptime now) with escape := ⟨false, 0⟩, last := now } := by
  have hpos := (h ha).1
  unfold Bridge.flush
  rw [if_neg]
  rintro (hn | hn)
  · simp [ha] at hn
  · omega

theorem consider_last (b : Bridge) (byte : RxByte) : (b.consider byte).last = byte.now := by
  unfold Bridge.consider
  split
  · rfl
  · rfl

/-- The pause is counted from the byte just taken up, whatever became of it. -/
theorem rx_last (b : Bridge) (byte : RxByte) : (b.rx byte).last = byte.now := by
  unfold Bridge.rx
  split
  · split
    · rfl
    · exact consider_last _ byte
  · exact consider_last _ byte

theorem consider_counted (ha : ¬b.escape.active) (byte : RxByte) : Counted (b.consider byte) := by
  unfold Bridge.consider
  split
  · intro _; exact ⟨Nat.one_pos, Nat.le_of_ble_eq_true rfl⟩
  · intro ha'; exact absurd ha' ha

theorem consider_detector (ha : ¬b.escape.active) (byte : RxByte) :
    (b.consider byte).detector = (Detector.consider (escapeConfig b.guardTime) b.detector byte.ch byte.now).1 ∧
      Adds b.log (b.consider byte).log []
        (Detector.consider (escapeConfig b.guardTime) b.detector byte.ch byte.now).2 := by
  unfold Bridge.consider Detector.consider
  by_cases hc : byte.ch = PLUS ∧ b.guardTime ≤ Detector.elapsed byte.now b.last
  · have hd : byte.ch = (escapeConfig b.guardTime).esc ∧
        (escapeConfig b.guardTime).guard ≤ Detector.elapsed byte.now b.detector.last := hc
    rw [if_pos hc, if_pos hd]
    exact ⟨rfl, ⟨rfl, by simp, rfl⟩⟩
  · have hd : ¬(byte.ch = (escapeConfig b.guardTime).esc ∧
        (escapeConfig b.guardTime).guard ≤ Detector.elapsed byte.now b.detector.last) := hc
    rw [if_neg hc, if_neg hd]
    refine ⟨?_, adds_put _ _ _⟩
    simp only [detector, offer, DataModeEscapeState.held, ha, Bool.false_eq_true, ↓reduceIte]

/-- One byte is one input of the detector. -/
theorem rx_detector (h : Counted b) (byte : RxByte) :
    (b.rx byte).detector =
        (Detector.step (escapeConfig b.guardTime) b.detector (.rx byte.ch byte.now byte.flushNow)).1 ∧
      Adds b.log (b.rx byte).log [.rx byte.ch byte.now byte.flushNow]
        (Detector.step (escapeConfig b.guardTime) b.detector (.rx byte.ch byte.now byte.flushNow)).2 := by
  have ht := adds_take b byte
  by_cases hx : Detector.Extends (escapeConfig b.guardTime) b.detector byte.ch
  · obtain ⟨hpos, hch, hlt⟩ := hx
    have ha : b.escape.active := by
      by_contra ha
      rw [h.held_zero.mpr ha] at hpos
      cases hpos
    have hheld : b.detector.held = b.escape.count := by simp [held_eq, ha]
    have hc : byte.ch = PLUS ∧ b.escape.count < 3 := ⟨hch, by rw [← hheld]; exact hlt⟩
    have hx : Detector.Extends (escapeConfig b.guardTime) b.detector byte.ch := ⟨hpos, hch, hlt⟩
    simp only [Bridge.rx, if_pos ha, if_pos hc, Detector.step, if_pos hx]
    refine ⟨?_, ht⟩
    rw [hheld]; rfl
  · have hcount : Counted (b.take byte) := h
    obtain ⟨hf, haf, hna⟩ := flush_detector hcount byte.flushNow
    -- without a candidate the flush does nothing, so both branches are the same
    have hrx : b.rx byte = ((b.take byte).flush byte.flushNow).consider byte := by
      unfold Bridge.rx
      by_cases ha : b.escape.active
      · have hc : ¬(byte.ch = PLUS ∧ b.escape.count < 3) := by
          rintro ⟨hch, hlt⟩
          have hheld : b.detector.held = b.escape.count := by simp [held_eq, ha]
          exact hx ⟨by rw [hheld]; exact (h ha).1, hch, by rw [hheld]; exact hlt⟩
        rw [if_pos ha, if_neg hc]
      · have hflush : (b.take byte).flush byte.flushNow = b.take byte := by
          unfold Bridge.flush
          rw [if_pos (Or.inl (by simpa [Bridge.take] using ha))]
        rw [if_neg ha, hflush]
    obtain ⟨hcd, hca⟩ := consider_detector hna byte
    have hg : ((b.take byte).flush byte.flushNow).guardTime = b.guardTime := (flush_same _ _).guardTime
    rw [hf, hg] at hcd hca
    rw [hrx, Detector.step, if_neg hx]
    exact ⟨hcd, (ht.trans haf).trans hca⟩

/-! ## The invariant -/

/-- What is known where a session was left: the detector is full, a guard time has passed since the time it
counts from, and, if the clock is right, its own view of time is right. -/
structure Exited (guardTime : Nat) (now : Int) (log : List Obs) (last : Int) : Prop where
  follows : Follows guardTime ⟨3, last⟩ log
  elapsed : guardTime ≤ Detector.elapsed now last
  timely : ClockForward log →
    Detector.Timely (escapeConfig guardTime) (sessionStart log) (history (session log)) ∧ last ≤ now

/-- What is known at an exit and at a byte. -/
def Known (guardTime : Nat) : Obs → List Obs → Prop
  | .exit now _, log => ∃ last, Exited guardTime now log last
  | .rx _ held last, log => Follows guardTime ⟨held, last⟩ log
  | _, _ => True

/-- The detector in data mode. -/
structure Watching (b : Bridge) : Prop where
  follows : Follows b.guardTime b.detector b.log
  reading : .uptime b.last ∈ b.log
  timely : ClockForward b.log →
    Detector.Timely (escapeConfig b.guardTime) (sessionStart b.log) (history (session b.log))

structure Escaping (b : Bridge) : Prop where
  counted : Counted b
  watching : b.mode = .dataMode → Watching b
  past : Past (Known b.guardTime) b.log

theorem known_of_unseen {guardTime : Nat} {o : Obs} {log : List Obs} (h : Unseen o) : Known guardTime o log := by
  cases o with
  | rx | exit => exact absurd h id
  | _ => trivial

theorem Watching.unseen (h : Watching b) {o : Obs} (ho : Unseen o) (hg : b'.guardTime = b.guardTime)
    (hd : b'.detector = b.detector) (hl : b'.log = o :: b.log) : Watching b' := by
  have hlast : b'.last = b.last := congrArg Detector.State.last hd
  refine ⟨?_, ?_, ?_⟩
  · rw [hg, hd, hl]; exact h.follows.unseen ho
  · rw [hlast, hl]; exact List.mem_cons_of_mem _ h.reading
  · intro hc
    rw [hl] at hc
    have ht := h.timely (hc.of_suffix (List.suffix_cons _ _))
    rw [hg, hl]
    cases o with
    | rx | guard | h2bPut | enter | exit => exact absurd ho id
    | _ => simpa using ht

/-- One observation that the detector does not see, with the mode and the detector left alone. -/
theorem Escaping.unseen (h : Escaping b) {o : Obs} (ho : Unseen o) (hg : b'.guardTime = b.guardTime)
    (he : b'.escape = b.escape) (ht : b'.last = b.last) (hm : b'.mode = .dataMode → b.mode = .dataMode)
    (hl : b'.log = o :: b.log) : Escaping b' where
  counted := by unfold Counted; rw [he]; exact h.counted
  watching hm' := (h.watching (hm hm')).unseen ho hg (by simp only [detector, he, ht]) hl
  past := by rw [hg, hl]; exact ⟨known_of_unseen ho, h.past⟩

/-- The log and the detector stay, and data mode is not entered. -/
theorem Escaping.of_same (h : Escaping b) (hg : b'.guardTime = b.guardTime) (he : b'.escape = b.escape)
    (ht : b'.last = b.last) (hm : b'.mode = .dataMode → b.mode = .dataMode) (hl : b'.log = b.log) :
    Escaping b' where
  counted := by unfold Counted; rw [he]; exact h.counted
  watching hm' := by
    obtain ⟨h1, h2, h3⟩ := h.watching (hm hm')
    have hd : b'.detector = b.detector := by simp only [detector, he, ht]
    exact ⟨by rw [hg, hd, hl]; exact h1, by rw [ht, hl]; exact h2, by rw [hg, hl]; exact h3⟩
  past := by rw [hg, hl]; exact h.past

theorem Escaping.refresh (h : Escaping b) : Escaping b.refresh := by
  obtain ⟨_, _, he⟩ := b.refresh_eq
  rw [he]
  exact h.of_same rfl rfl rfl id rfl

/-- Data mode begins with an empty detector. -/
theorem Escaping.entered (h : Escaping b) (now : Int) : Escaping (b.entered now) where
  counted ha := by cases ha
  watching _ := by
    refine ⟨⟨rfl, rfl⟩, ?_, fun _ => trivial⟩
    exact List.mem_cons_of_mem _ List.mem_cons_self
  past := ⟨trivial, trivial, h.past⟩

theorem Escaping.activate (h : Escaping b) (now : Int) : Escaping (b.activate now) := by
  rcases b.activate_cases now with he | ⟨_, _, _, _, he⟩
  · rw [he]; exact h
  · rw [he]; exact (h.entered now).refresh

/-- A byte or a firing in data mode: the detector takes one step. -/
theorem Watching.step (h : Watching b) {i : Detector.Input Byte} (hg : b'.guardTime = b.guardTime)
    (hd : b'.detector = (Detector.step (escapeConfig b.guardTime) b.detector i).1)
    (ha : Adds b.log b'.log [i] (Detector.step (escapeConfig b.guardTime) b.detector i).2)
    (hr : .uptime b'.last ∈ b'.log) (hc : ClockForward b'.log → ClockForward b.log ∧ b.last ≤ i.now) :
    Watching b' := by
  have hstate : Detector.replay (escapeConfig b.guardTime) (sessionStart b.log) (history (session b.log)) =
      b.detector := h.follows.state
  refine ⟨⟨?_, ?_⟩, hr, ?_⟩
  · rw [hg, hd, replayed, ha.start, ha.history, List.singleton_append, Detector.replay, hstate]
  · rw [hg, ha.offered, ha.start, ha.history, h.follows.offered, List.singleton_append, Detector.released, hstate]
  · intro hcl
    obtain ⟨hcl, hle⟩ := hc hcl
    rw [hg, ha.start, ha.history, List.singleton_append]
    refine ⟨h.timely hcl, ?_⟩
    rw [hstate]; exact hle

theorem Counted.rx (h : Counted b) (byte : RxByte) : Counted (b.rx byte) := by
  unfold Bridge.rx
  split
  · split
    · rename_i hc
      intro _
      exact ⟨Nat.succ_pos _, hc.2⟩
    · have hcount : Counted (b.take byte) := h
      exact consider_counted (flush_detector hcount byte.flushNow).2.2 byte
  · rename_i ha
    have hna : ¬(b.take byte).escape.active := ha
    exact consider_counted hna byte

theorem pastKept (guardTime : Nat) : OfferKept fun b => Past (Known guardTime) b.log where
  uptime _ h := ⟨trivial, h⟩
  offer _ h := ⟨trivial, h⟩
  detector _ _ _ h := h

theorem Escaping.rx (h : Escaping b) (hm : b.mode = .dataMode) (byte : RxByte) : Escaping (b.rx byte) := by
  have hw := h.watching hm
  obtain ⟨hd, ha⟩ := rx_detector h.counted byte
  have hg : (b.rx byte).guardTime = b.guardTime := (b.rx_same byte).guardTime
  have hmem : Obs.uptime byte.now ∈ (b.take byte).log := List.mem_cons_self
  refine ⟨h.counted.rx byte, fun _ => ?_, ?_⟩
  · refine hw.step hg hd ha ?_ ?_
    · rw [rx_last]
      exact (b.take_log_suffix byte).subset hmem
    · intro hc
      have htake : ClockForward (b.take byte).log := hc.of_suffix (b.take_log_suffix byte)
      exact ⟨hc.of_suffix (b.rx_log_suffix byte), htake.le (List.mem_cons_of_mem _ hw.reading)⟩
  · rw [hg]
    refine (pastKept b.guardTime).rx byte ?_
    exact ⟨trivial, hw.follows, h.past⟩

theorem Escaping.wait (h : Escaping b) (hm : b.mode = .dataMode) (ha : b.escape.active)
    (hn : b.escape.count = 3) (now : Int) : Escaping ((b.note (.uptime now)).note (.guard now)) := by
  have hw := h.watching hm
  have hheld : b.detector.held = 3 := by rw [held_eq, if_pos ha, hn]
  have hstep : Detector.step (escapeConfig b.guardTime) b.detector (.fire now) = (b.detector, []) := by
    rw [Detector.step, if_pos (by exact hheld)]
  refine ⟨h.counted, fun _ => ?_, ⟨trivial, trivial, h.past⟩⟩
  refine hw.step (i := .fire now) rfl (by rw [hstep]; rfl) ?_ ?_ ?_
  · rw [hstep]
    have hadds := (adds_uptime now b.log).trans (adds_guard now _)
    simp only [List.append_nil] at hadds
    exact hadds
  · exact List.mem_cons_of_mem _ (List.mem_cons_of_mem _ hw.reading)
  · intro hc
    have hu : ClockForward (.uptime now :: b.log) := hc
    exact ⟨hu.of_suffix (List.suffix_cons _ _), hu.le hw.reading⟩

theorem Escaping.expire (h : Escaping b) (hm : b.mode = .dataMode) (ha : b.escape.active)
    (hn : b.escape.count ≠ 3) (now : Int) : Escaping ((b.flush now).note (.guard now)) := by
  have hw := h.watching hm
  obtain ⟨hfd, hfa, hna⟩ := flush_detector h.counted now
  have hheld : ¬b.detector.held = 3 := by rw [held_eq, if_pos ha]; exact hn
  have hstep : Detector.step (escapeConfig b.guardTime) b.detector (.fire now) =
      Detector.flush (escapeConfig b.guardTime) b.detector now := by
    rw [Detector.step, if_neg (by exact hheld)]
  have hg : (b.flush now).guardTime = b.guardTime := (b.flush_same now).guardTime
  have hflush := flush_of_active h.counted ha now
  refine ⟨fun ha' => absurd ha' hna, fun _ => ?_, ?_⟩
  · refine hw.step (i := .fire now) hg (by rw [hstep]; exact hfd) ?_ ?_ ?_
    · rw [hstep]
      have hadds := hfa.trans (adds_guard now _)
      simp only [List.append_nil] at hadds
      exact hadds
    · rw [hflush]
      exact List.mem_cons_of_mem _ List.mem_cons_self
    · intro hc
      rw [hflush] at hc
      have hu : ClockForward (.uptime now :: (b.offer ([PLUS, PLUS, PLUS].take b.escape.count)).log) := hc
      exact ⟨hu.of_suffix (suffix_note (List.suffix_cons _ _) _), hu.le (List.mem_cons_of_mem _ hw.reading)⟩
  · change Known (b.flush now).guardTime (.guard now) _ ∧ Past (Known (b.flush now).guardTime) (b.flush now).log
    rw [hg]
    exact ⟨trivial, (pastKept b.guardTime).flush h.past now⟩

/-- At the exit everything that is known of the session goes into the past. -/
theorem Escaping.exit (h : Escaping b) (hm : b.mode = .dataMode) (ha : b.escape.active)
    (hn : b.escape.count = 3) {now : Int} (hg : b.guardTime ≤ Detector.elapsed now b.last) {mode : AppState}
    (hmode : mode ≠ .dataMode) : Escaping (((b.note (.uptime now)).note (.exit now b.toBle.data)).clear mode) := by
  have hw := h.watching hm
  have hheld : b.detector = ⟨3, b.last⟩ := by
    simp only [detector, DataModeEscapeState.held, ha, ↓reduceIte, hn]
  have hexit : Exited b.guardTime now (.uptime now :: b.log) b.last := by
    refine ⟨?_, hg, ?_⟩
    · rw [← hheld]; exact hw.follows.unseen trivial
    · intro hc
      exact ⟨by simpa using hw.timely (hc.of_suffix (List.suffix_cons _ _)), hc.le hw.reading⟩
  exact ⟨fun ha' => by simp [Bridge.clear] at ha', fun hm' => absurd hm' hmode,
    ⟨trivial, ⟨b.last, hexit⟩, trivial, h.past⟩⟩

/-- Outside data mode nothing is claimed about the detector. -/
theorem Escaping.outside (h : Escaping b) (hg : b'.guardTime = b.guardTime)
    (he : b'.escape = b.escape ∨ ¬b'.escape.active) (hm : b'.mode ≠ .dataMode)
    (hp : Past (Known b.guardTime) b'.log) : Escaping b' where
  counted := by
    rcases he with he | he
    · unfold Counted; rw [he]; exact h.counted
    · exact fun ha => absurd ha he
  watching hm' := absurd hm' hm
  past := by rw [hg]; exact hp

theorem unseen_of_quiet {o : Obs} (h : Quiet o) : Unseen o := by
  cases o with
  | uptime | stack | callback | connUnref | profile => trivial
  | _ => exact absurd h id

theorem Escaping.step (hl : Linked b) (h : Escaping b) (hs : Step b b') : Escaping b' := by
  cases hs with
  | quiet hq => exact h.unseen (unseen_of_quiet hq) rfl rfl rfl id rfl
  | rx byte hm => exact h.rx hm byte
  | refresh => exact h.refresh
  | pause | idle | setReady => exact h.of_same rfl rfl rfl id rfl
  | wait now ha hn => exact h.wait (hl.dataMode_of_active ha) ha hn now
  | expire now ha hn => exact (h.expire (hl.dataMode_of_active ha) ha hn now).of_same rfl rfl rfl id rfl
  | exit now mode ha hn hg hm => exact h.exit (hl.dataMode_of_active ha) ha hn hg hm
  | sendAccepted n k =>
      refine Escaping.refresh ?_
      exact h.unseen (o := .write (b.chunk n k) 0 b.toBle.claimed) trivial rfl rfl rfl id rfl
  | notify payload =>
      have hn : Escaping (b.note (.notify payload)) := h.unseen (o := .notify payload) trivial rfl rfl rfl id rfl
      unfold Bridge.notify
      split
      · exact hn.unseen (o := .b2hPut payload _) trivial rfl rfl rfl id rfl
      · exact hn
  | fillCtrl sent ring now =>
      have hf : Escaping { b with ctrl := ring, log := .fill true sent :: b.log } :=
        h.unseen (o := .fill true sent) trivial rfl rfl rfl id rfl
      unfold Bridge.fillCtrl
      split
      · exact hf
      · exact hf.activate now
  | activate now => exact h.activate now
  | setMode mode hm hm' => exact h.outside rfl (Or.inl rfl) hm' h.past
  | create conn => exact h.outside rfl (Or.inl rfl) (by simp) h.past
  | connectFailed err =>
      exact h.outside rfl (Or.inl rfl) (by simp [Bridge.connectFailed]) ⟨trivial, h.past⟩
  | connectOk conn =>
      exact h.outside rfl (Or.inl rfl) (by simp [Bridge.connectOk]) ⟨trivial, h.past⟩
  | disconnect reason conn =>
      refine h.outside rfl (Or.inr ?_) ?_ ⟨trivial, trivial, trivial, h.past⟩
      · simp [Bridge.disconnect, Bridge.clear]
      · simp [Bridge.disconnect, Bridge.clear]
  | atRx bytes => exact h.unseen (o := .atRx bytes) trivial rfl rfl rfl id rfl
  | read bytes => exact h.unseen (o := .dataRx bytes _ _) trivial rfl rfl rfl id rfl
  | sendFailed n k result => exact h.unseen (o := .write _ result _) trivial rfl rfl rfl id rfl
  | putCtrl data => exact h.unseen (o := .ctrlPut data _) trivial rfl rfl rfl id rfl
  | ctrlLine line whole => exact h.unseen (o := .ctrlLine line whole) trivial rfl rfl rfl id rfl
  | fillToHost sent ring => exact h.unseen (o := .fill false sent) trivial rfl rfl rfl id rfl
  | enterAccepted => exact h.unseen (o := .enterAccepted) trivial rfl rfl rfl id rfl

theorem Reachable.escaping (h : Reachable b) : Escaping b := by
  obtain ⟨guardTime, started, hs⟩ := h
  have hboth : Linked b ∧ Escaping b := by
    refine Runs.invariant (P := fun b => Linked b ∧ Escaping b) ?_ hs ⟨linked_start guardTime started, ?_⟩
    · intro b b' hs h
      exact ⟨h.1.step hs, h.2.step h.1 hs⟩
    · exact ⟨fun ha => by simp [start] at ha, fun hm => by simp [start] at hm, trivial, trivial⟩
  exact hboth.2

/-! ## What is known at an exit -/

theorem noTick_of_steady {guardTime : Nat} {log : List Obs} (hp : Past (Known guardTime) log) (hs : SteadyFlush log) :
    Detector.NoTick (escapeConfig guardTime) (sessionStart log) (history (session log)) := by
  induction log with
  | nil => trivial
  | cons o log ih =>
      have hrest := ih hp.2 fun o' hm => hs o' (List.mem_cons_of_mem _ hm)
      cases o with
      | rx byte held last =>
          refine ⟨hrest, fun hfull hch => ?_⟩
          have hf : Follows guardTime ⟨held, last⟩ log := hp.1
          have hheld : held = 3 := by
            have hstate : Detector.replay (escapeConfig guardTime) (sessionStart log) (history (session log)) =
                ⟨held, last⟩ := hf.state
            simp only [sessionStart, hstate] at hfull
            exact hfull
          have hsteady := hs (.rx byte held last) List.mem_cons_self
          have hplus : byte.ch = PLUS := hch
          simpa [Obs.steady, hheld, hplus] using hsteady
      | enter now left => trivial
      | _ => exact hrest

/-- The clock readings at an exit, if the clock is right and steady. -/
theorem Exited.guarded {guardTime : Nat} {now last : Int} {log : List Obs} (h : Exited guardTime now log last)
    (hp : Past (Known guardTime) log) (hc : ClockForward log) (hs : SteadyFlush log) :
    Detector.Guarded (escapeConfig guardTime) (sessionStart log) (hostBytes (session log)) 3 last ∧
      (guardTime : Int) ≤ now - last := by
  obtain ⟨htimely, hle⟩ := h.timely hc
  have hstate : Detector.replay (escapeConfig guardTime) (sessionStart log) (history (session log)) = ⟨3, last⟩ :=
    h.follows.state
  have hg := Detector.guarded_of_held (Nat.le_of_ble_eq_true rfl) (history (session log)) htimely
    (noTick_of_steady hp hs) (by rw [hstate]; exact Nat.succ_pos 2)
  rw [hstate, arrivals_history] at hg
  have hwait := Detector.elapsed_of_le hle
  have helapsed := h.elapsed
  exact ⟨hg, by omega⟩

/-! ## The guard timer -/

/-- The timer runs while pluses are held back. -/
def Armed (b : Bridge) : Prop := b.escape.active → b.armed

theorem Armed.of_same (h : Armed b) (he : b'.escape = b.escape) (ha : b'.armed = b.armed) : Armed b' := by
  unfold Armed
  rw [he, ha]; exact h

theorem Armed.refresh (h : Armed b) : Armed b.refresh := by
  obtain ⟨_, _, he⟩ := b.refresh_eq
  rw [he]
  exact h

theorem Armed.activate (h : Armed b) (now : Int) : Armed (b.activate now) := by
  rcases b.activate_cases now with he | ⟨_, _, _, _, he⟩
  · rw [he]; exact h
  · rw [he]
    refine Armed.refresh ?_
    intro ha
    cases ha

theorem armed_consider (ha : ¬b.escape.active) (byte : RxByte) : Armed (b.consider byte) := by
  unfold Bridge.consider
  split
  · exact fun _ => rfl
  · exact fun ha' => absurd ha' ha

/-- A byte that continues a candidate or opens one starts the timer again. -/
theorem armed_rx (h : Counted b) (byte : RxByte) : Armed (b.rx byte) := by
  unfold Bridge.rx
  split
  · split
    · exact fun _ => rfl
    · have hcount : Counted (b.take byte) := h
      exact armed_consider (flush_detector hcount byte.flushNow).2.2 byte
  · rename_i ha
    have hna : ¬(b.take byte).escape.active := ha
    exact armed_consider hna byte

theorem Armed.step (hc : Counted b) (h : Armed b) (hs : Step b b') : Armed b' := by
  cases hs with
  | rx byte => exact armed_rx hc byte
  | refresh => exact h.refresh
  | expire now => exact fun ha => absurd ha (flush_detector hc now).2.2
  | idle ha => exact fun ha' => absurd ha' ha
  | exit now mode | disconnect reason conn => exact fun ha => by cases ha
  | sendAccepted n k => exact Armed.refresh (h.of_same rfl rfl)
  | notify payload =>
      unfold Bridge.notify
      split
      · exact h.of_same rfl rfl
      · exact h.of_same rfl rfl
  | fillCtrl sent ring now =>
      have hf : Armed { b with ctrl := ring, log := .fill true sent :: b.log } := h.of_same rfl rfl
      unfold Bridge.fillCtrl
      split
      · exact hf
      · exact hf.activate now
  | activate now => exact h.activate now
  | _ => exact h.of_same rfl rfl

theorem Reachable.armed (h : Reachable b) : Armed b := by
  obtain ⟨guardTime, started, hs⟩ := h
  have hboth : Reachable b ∧ Armed b := by
    refine Runs.invariant (P := fun b => Reachable b ∧ Armed b) ?_ hs ⟨⟨guardTime, started, ReflTransGen.refl⟩, ?_⟩
    · rintro b b' hs ⟨⟨guardTime, started, hr⟩, h⟩
      exact ⟨⟨guardTime, started, hr.tail hs⟩, h.step (Reachable.escaping ⟨guardTime, started, hr⟩).counted hs⟩
    · exact fun ha => by simp [start] at ha
  exact hboth.2

end BleAtHost.Bridge
