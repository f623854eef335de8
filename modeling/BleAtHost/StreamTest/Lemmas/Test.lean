import BleAtHost.StreamTest.Test
import BleAtHost.StreamTest.Theorems.Accounting
import BleAtHost.StreamTest.Theorems.Resync

/-!
# What the stream test keeps to

What the main thread does is told by a ledger: the frames that are written, the calls of `mark_tx` and whether the last
look at the accounts has shown room for one more frame. The handler of the reader thread goes on in between.
-/

namespace BleAtHost.StreamTest

open Prog

/-! ## What the main thread does -/

/-- `marked` counts the calls of `mark_tx`; with `room` the last look has shown fewer outstanding frames than allowed, and
none was sent since. -/
structure Ledger where
  frames : List Sent
  marked : Nat
  room : Bool

def Ledger.init : Ledger := ⟨[], 0, false⟩

/-- Every frame that was marked is written. -/
def Ledger.Even (t : Ledger) : Prop := t.frames.length = t.marked

def Printed.snapshot? : Printed → Option StreamStats.Snapshot
  | .live snapshot | .result snapshot => some snapshot
  | .target _ _ | .streamStat _ => none

/-- Frames are marked one after the other, in the gated mode only with room, and every one is written after it was
marked. -/
def spec (args : Args) (t : Ledger) : (o : Op) → (Answer o → Ledger → Prop) → Prop
  | .addDataHandler, R => HEADER_SIZE ≤ args.size ∧ R () t
  | .call (.writeStream payload), R =>
      (∃ frame : Sent, payload = frame.bytes args.size ∧ frame.seq = t.frames.length ∧ t.frames.length < t.marked ∧
        HEADER_SIZE ≤ args.size ∧ args.size < 2 ^ 16 ∧ R (.ok ()) { t with frames := t.frames ++ [frame] }) ∧
      ∀ e, R (.error e) t
  | .call _, R => ∀ r, R r t
  | .monotonic, R => ∀ now, R now t
  | .outstanding, R => ∀ n, R n { t with room := decide ((n : Int) < args.maxOutstanding) }
  | .markTx seq _, R =>
      seq = t.marked ∧ t.Even ∧ (args.mode = .echoGated → t.room = true) ∧
        R () { t with marked := t.marked + 1, room := false }
  | .print line, R => line.snapshot? = none ∧ R () t
  | .printSnapshot line _, R => (∀ snapshot, (line snapshot).snapshot? = some snapshot) ∧ R () t
  | .sleep _, R | .close, R => R () t

variable {args : Args}

theorem spec_monotone : Monotone (spec args) := by
  intro t o R R' hr h
  cases o with
  | addDataHandler => exact ⟨h.1, hr _ _ h.2⟩
  | call c =>
      cases c with
      | writeStream payload =>
          obtain ⟨⟨frame, hpayload, hseq, hlt, hsize, hshort, hok⟩, herror⟩ := h
          exact ⟨⟨frame, hpayload, hseq, hlt, hsize, hshort, hr _ _ hok⟩, fun e => hr _ _ (herror e)⟩
      | _ => exact fun r => hr _ _ (h r)
  | monotonic => exact fun now => hr _ _ (h now)
  | outstanding => exact fun n => hr _ _ (h n)
  | markTx seq sentTime => exact ⟨h.1, h.2.1, h.2.2.1, hr _ _ h.2.2.2⟩
  | print line => exact ⟨h.1, hr _ _ h.2⟩
  | printSnapshot line elapsed => exact ⟨h.1, hr _ _ h.2⟩
  | sleep duration => exact hr _ _ h
  | close => exact hr _ _ h

section
variable {α β : Type} {t : Ledger}

/-- Whatever the program ends with. -/
abbrev Keeps (args : Args) (p : Program α) (t : Ledger) : Prop := p.wp (spec args) (fun _ _ => True) t

theorem keeps_bind {p : Program α} {f : α → Program β} (K : α → Ledger → Prop)
    (hp : p.wp (spec args) (fun r t' => ∀ a, r = .ok a → K a t') t) (hf : ∀ a t', K a t' → Keeps args (f a) t') :
    Keeps args (p >>= f) t := by
  refine wp_bind spec_monotone (wp_mono spec_monotone hp ?_)
  rintro (e | a) t' h
  · trivial
  · exact hf a t' (h a rfl)

theorem keeps_ask {o : Op} {f : Answer o → Program β} (h : spec args t o fun a t' => Keeps args (f a) t') :
    Keeps args (ask o >>= f) t := h

theorem keeps_call {c : Client.Call} (hc : ∀ payload, c ≠ .writeStream payload) {f : Result c → Program β}
    (hf : ∀ a, Keeps args (f a) t) : Keeps args (call c >>= f) t := by
  have hspec : ∀ {R : Answer (.call c) → Ledger → Prop}, (∀ r, R r t) → spec args t (.call c) R := by
    intro R hr
    cases c with
    | writeStream payload => exact absurd rfl (hc payload)
    | _ => exact hr
  apply hspec
  rintro (e | a)
  · trivial
  · exact hf a

theorem milliseconds_lt (now : ℚ) : milliseconds now < 2 ^ 32 := by
  have hpos : (0 : Int) < 2 ^ 32 := by decide
  have hlt := Int.emod_lt_of_pos ((now * 1000).num.tdiv (now * 1000).den) hpos
  have hnonneg := Int.emod_nonneg ((now * 1000).num.tdiv (now * 1000).den) (Int.ne_of_gt hpos)
  rw [milliseconds]
  omega

/-- It raises or gives a frame that can be sent. -/
theorem wp_buildFrameNow (seq frameSize : Nat) :
    (buildFrameNow seq frameSize).wp (spec args) (fun r t' => t' = t ∧ ∀ bytes, r = .ok bytes →
      frameSize < 2 ^ 16 ∧ ∃ frame : Sent, bytes = frame.bytes frameSize ∧ frame.seq = seq) t := by
  intro now
  show Prog.wp (spec args) (if 2 ^ 32 ≤ seq ∨ 2 ^ 16 ≤ frameSize then _ else _) _ t
  split
  · exact ⟨rfl, fun _ he => by cases he⟩
  · rename_i hfits
    rw [not_or, Nat.not_le, Nat.not_le] at hfits
    refine ⟨rfl, fun bytes he => ⟨hfits.2, ⟨seq, milliseconds now, hfits.1, milliseconds_lt now⟩, ?_, rfl⟩⟩
    cases he
    rfl

/-- If the gate is open there is room. -/
theorem wp_gateShut :
    (gateShut args).wp (spec args) (fun r t' => ∀ shut, r = .ok shut → t'.frames = t.frames ∧ t'.marked = t.marked ∧
      (shut = false → args.mode = .echoGated → t'.room = true)) t := by
  unfold gateShut
  cases hmode : args.mode with
  | blindRate => exact fun _ _ => ⟨rfl, rfl, fun _ hgated => by cases hgated⟩
  | echoGated =>
      intro n shut he
      refine ⟨rfl, rfl, fun hopen _ => ?_⟩
      cases he
      simpa using hopen

/-- What a pass of the loop begins and goes on with. -/
def Counted (s : Sending) (t : Ledger) : Prop := s.seq = t.marked ∧ t.Even

/-- A pass ends the loop or goes on. -/
abbrev Passes (args : Args) (p : Program (Sending ⊕ Unit)) (t : Ledger) : Prop :=
  p.wp (spec args) (fun r t' => ∀ s, r = .ok (.inl s) → Counted s t') t

theorem passes_sendFrame (hsize : HEADER_SIZE ≤ args.size) (start now : ℚ) {s : Sending} (hs : Counted s t)
    (hr : args.mode = .echoGated → t.room = true) : Passes args (sendFrame args start now s) t := by
  obtain ⟨hseq, heven⟩ := hs
  unfold Ledger.Even at heven
  refine wp_bind spec_monotone (wp_mono spec_monotone (wp_buildFrameNow s.seq args.size) ?_)
  rintro (e | bytes) t' ⟨rfl, hframe⟩
  · exact fun _ he => by cases he
  obtain ⟨hshort, frame, rfl, hnumber⟩ := hframe bytes rfl
  refine fun sentTime => ⟨hseq, heven, hr, ⟨frame, rfl, ?_, ?_, hsize, hshort, ?_⟩, fun e _ he => by cases he⟩
  · rw [hnumber, hseq, heven]
  · exact Nat.lt_succ_of_le (Nat.le_of_eq heven)
  · have hcounted : ∀ nextSend nextStats, Counted ⟨s.seq + 1, nextSend, nextStats⟩
        ⟨t'.frames ++ [frame], t'.marked + 1, false⟩ := by
      intro nextSend nextStats
      refine ⟨by rw [hseq], ?_⟩
      rw [Ledger.Even, List.length_append, List.length_singleton, heven]
    show Prog.wp (spec args) (if s.nextStats ≤ now then _ else _) _ _
    split
    · refine ⟨fun _ => rfl, fun s' he => ?_⟩
      cases he
      exact hcounted _ _
    · intro s' he
      cases he
      exact hcounted _ _

theorem passes_sendPass (hsize : HEADER_SIZE ≤ args.size) (start : ℚ) {s : Sending} (hs : Counted s t) :
    Passes args (sendPass args start s) t := by
  have hsame : ∀ {t' : Ledger}, t'.frames = t.frames → t'.marked = t.marked → Counted s t' := by
    intro t' hframes hmarked
    refine ⟨hmarked ▸ hs.1, ?_⟩
    rw [Ledger.Even, hframes, hmarked]
    exact hs.2
  intro now
  show Prog.wp (spec args) (if args.duration ≤ now - start then _ else _) _ t
  split
  · exact fun _ he => by cases he
  refine wp_bind spec_monotone (wp_mono spec_monotone wp_gateShut ?_)
  rintro (e | shut) t' h
  · exact fun _ he => by cases he
  obtain ⟨hframes, hmarked, hroom⟩ := h shut rfl
  have hback : ∀ s', (.ok (.inl s) : Except TestError (Sending ⊕ Unit)) = .ok (.inl s') → Counted s' t' := by
    intro s' he
    cases he
    exact hsame hframes hmarked
  cases shut with
  | true => exact hback
  | false =>
      show Prog.wp (spec args) (if now < s.nextSend then _ else _) _ t'
      split
      · show Prog.wp (spec args) (if 0 < min (s.nextSend - now) (5 / 1000) then _ else _) _ t'
        split
        · exact hback
        · exact hback
      · exact passes_sendFrame hsize start now (hsame hframes hmarked) (hroom rfl)

theorem keeps_settle (deadline : ℚ) : Keeps args (settle deadline) t := by
  refine ⟨fun _ _ => True, trivial, fun _ t' _ now => ?_⟩
  show Prog.wp (spec args) (if now < deadline then _ else _) _ t'
  split
  · intro n
    show Prog.wp (spec args) (if 0 < n then _ else _) _ _
    split
    · trivial
    · trivial
  · trivial

theorem keeps_streamFrames (hsize : HEADER_SIZE ≤ args.size) (heven : t.Even) (hnone : t.marked = 0) :
    Keeps args (streamFrames args) t := by
  unfold streamFrames
  split
  · trivial
  refine keeps_ask fun start => ?_
  refine keeps_bind (fun _ _ => True) ⟨Counted, ⟨hnone.symm, heven⟩, fun s t' hs => ?_⟩ fun _ t' _ => ?_
  · refine wp_mono spec_monotone (passes_sendPass hsize start hs) ?_
    rintro (e | s' | _) t'' h
    · exact fun _ he => by cases he
    · exact h s' rfl
    · exact fun _ _ => trivial
  · refine keeps_ask fun stop => keeps_ask fun settled => keeps_bind (fun _ _ => True) (wp_mono spec_monotone (keeps_settle _) ?_) fun _ t'' _ => ?_
    · exact fun _ _ _ _ _ => trivial
    · exact ⟨fun _ => rfl, trivial⟩

theorem keeps_resolveTarget {f : Client.Str × Int → Program β} (hf : ∀ a, Keeps args (f a) t) :
    Keeps args (resolveTarget args >>= f) t := by
  refine keeps_bind (fun _ t' => t' = t) ?_ fun a _ he => he ▸ hf a
  unfold resolveTarget
  split
  · exact fun _ _ => rfl
  split
  · exact fun _ _ => rfl
  intro r
  cases r with
  | error e => exact fun _ he => by cases he
  | ok results =>
      dsimp only [Prog.bind, Pure.pure]
      split
      · exact fun _ _ => rfl
      · exact fun _ _ => rfl

theorem keeps_session (hsize : HEADER_SIZE ≤ args.size) (heven : t.Even) (hnone : t.marked = 0) :
    Keeps args (session args) t := by
  refine keeps_call (fun _ he => by cases he) fun _ => keeps_resolveTarget fun target => ⟨rfl, ?_⟩
  refine keeps_call (fun _ he => by cases he) fun _ => keeps_call (fun _ he => by cases he) fun _ => ?_
  refine keeps_bind (fun _ _ => True) (wp_mono spec_monotone (keeps_streamFrames hsize heven hnone) ?_) fun _ t' _ => ?_
  · exact fun _ _ _ _ _ => trivial
  refine keeps_call (fun _ he => by cases he) fun _ => keeps_call (fun _ he => by cases he) fun text => ⟨rfl, ?_⟩
  exact fun r => by cases r with | _ => trivial

theorem keeps_main (args : Args) : Keeps args (main args) .init := by
  unfold main
  split
  · trivial
  · rename_i hcheck
    have hsize : HEADER_SIZE ≤ args.size := by
      rw [Args.size]
      omega
    have heven : Ledger.init.Even := rfl
    have hsession : (attempt (session args)).wp (spec args) (fun r _ => ∀ a, r = .ok a → True) .init :=
      wp_attempt spec_monotone (wp_mono spec_monotone (keeps_session hsize heven rfl) fun _ _ _ _ _ => trivial)
    refine keeps_ask ⟨hsize, keeps_bind (fun _ _ => True) hsession fun r t' _ => ?_⟩
    cases r with
    | _ => trivial

end

/-! ## The accounts and the parser -/

theorem outstanding_markTx (s : StreamStats) (seq : Nat) (sentTime : ℚ) :
    (s.markTx seq sentTime).outstanding ≤ s.outstanding + 1 := Nat.succ_le_succ (List.length_filter_le _ _)

theorem outstanding_markRx (s : StreamStats) (frame : ParsedFrame) (receivedTime : ℚ) :
    (s.markRx frame receivedTime).outstanding ≤ s.outstanding := by
  rw [StreamStats.markRx]
  split
  · exact Nat.le_refl _
  · dsimp only
    split
    · exact Nat.le_refl _
    · exact List.length_filter_le _ _

def Mark.frame? : Mark → Option ParsedFrame
  | .tx _ _ => none
  | .rx frame _ => some frame

/-- The frames that were received. -/
def handled (history : List Mark) : List ParsedFrame := history.filterMap Mark.frame?

theorem handled_tx (history : List Mark) (seq : Nat) (sentTime : ℚ) :
    handled (history ++ [.tx seq sentTime]) = handled history := by simp [handled, Mark.frame?]

theorem handled_rx (history : List Mark) (frame : ParsedFrame) (receivedTime : ℚ) :
    handled (history ++ [.rx frame receivedTime]) = handled history ++ [frame] := by simp [handled, Mark.frame?]

theorem sent_tx (history : List Mark) (seq : Nat) (sentTime : ℚ) :
    sent (history ++ [.tx seq sentTime]) = sent history ++ [seq] := by simp [sent, Mark.sent?]

theorem sent_rx (history : List Mark) (frame : ParsedFrame) (receivedTime : ℚ) :
    sent (history ++ [.rx frame receivedTime]) = sent history := by simp [sent, Mark.sent?]

theorem received_eq (history : List Mark) : received history = (handled history).map ParsedFrame.seq := by
  induction history with
  | nil => rfl
  | cons m history ih =>
      cases m with
      | tx seq sentTime => exact ih
      | rx frame receivedTime => exact congrArg (frame.seq :: ·) ih

/-! ## What is known of both threads -/

/-- What the ledger tells of the state, whatever arrives. -/
structure Known (args : Args) (s : Rig) (t : Ledger) : Prop where
  sized : s.handler = true → HEADER_SIZE ≤ args.size
  stats : s.stats = accounts args.size s.history
  sent : sent s.history = List.range t.marked
  written : s.written = t.frames.map fun frame => frame.bytes args.size
  numbered : t.frames.map Sent.seq = List.range t.frames.length
  fits : t.frames ≠ [] → HEADER_SIZE ≤ args.size ∧ args.size < 2 ^ 16
  marked : t.frames.length ≤ t.marked
  frameSize : s.parserState.frameSize = args.size
  rest : scan args.size s.parserState.buffer = []
  reads : ∀ more, scan args.size (s.received ++ more) =
    handled s.history ++ s.found ++ scan args.size (s.parserState.buffer ++ more)
  room : t.room = true → (s.stats.outstanding : Int) < args.maxOutstanding
  gate : args.mode = .echoGated → (s.stats.outstanding : Int) ≤ max args.maxOutstanding 0
  printed : ∀ line ∈ s.printed, ∀ snapshot, line.snapshot? = some snapshot →
    ∃ history elapsed, history <+: s.history ∧ snapshot = (accounts args.size history).snapshot elapsed

theorem known_init (args : Args) : Known args (.init args) .init where
  sized h := by cases h
  stats := rfl
  sent := rfl
  written := rfl
  numbered := rfl
  fits h := absurd rfl h
  marked := Nat.le_refl 0
  frameSize := rfl
  rest := Windows.scan_nil 0
  reads _ := rfl
  room h := by cases h
  gate _ := Int.le_max_right _ _
  printed _ h := by cases h

section
variable {s : Rig} {t : Ledger}

theorem Known.printed_later (h : Known args s t) (m : Mark) : ∀ line ∈ (s.mark m).printed, ∀ snapshot,
    line.snapshot? = some snapshot →
      ∃ history elapsed, history <+: (s.mark m).history ∧ snapshot = (accounts args.size history).snapshot elapsed := by
  intro line hline snapshot hs
  obtain ⟨history, elapsed, hpre, he⟩ := h.printed line hline snapshot hs
  exact ⟨history, elapsed, hpre.trans (List.prefix_append _ _), he⟩

theorem Known.markTx (h : Known args s t) (sentTime : ℚ) (hr : args.mode = .echoGated → t.room = true) :
    Known args (s.mark (.tx t.marked sentTime)) { t with marked := t.marked + 1, room := false } where
  sized := h.sized
  stats := by
    rw [Rig.mark, accounts_concat, h.stats]
  sent := by
    rw [Rig.mark, sent_tx, h.sent, List.range_succ]
  written := h.written
  numbered := h.numbered
  fits := h.fits
  marked := Nat.le_succ_of_le h.marked
  frameSize := h.frameSize
  rest := h.rest
  reads := by
    rw [Rig.mark, handled_tx]
    exact h.reads
  room hroom := by cases hroom
  gate hgated := by
    have hbefore := h.room (hr hgated)
    have hmore : ((s.mark (.tx t.marked sentTime)).stats.outstanding : Int) ≤ s.stats.outstanding + 1 := by
      exact_mod_cast outstanding_markTx s.stats t.marked sentTime
    exact Int.le_trans hmore (Int.le_trans hbefore (Int.le_max_left _ _))
  printed := h.printed_later _

theorem Known.write (h : Known args s t) (frame : Sent) (hseq : frame.seq = t.frames.length)
    (hlt : t.frames.length < t.marked) (hsize : HEADER_SIZE ≤ args.size) (hshort : args.size < 2 ^ 16) :
    Known args { s with written := s.written ++ [frame.bytes args.size] } { t with frames := t.frames ++ [frame] } :=
  { h with
    written := by rw [List.map_append, h.written]; rfl
    numbered := by
      rw [List.map_append, h.numbered, List.length_append, List.map_singleton, hseq, List.length_singleton,
        List.range_succ]
    fits := fun _ => ⟨hsize, hshort⟩
    marked := by rw [List.length_append, List.length_singleton]; exact hlt }

theorem spec_sound (w : Choice) : Sound (spec args) (Rig.perform w) (Known args) := by
  intro s s' t o a R hk h he
  cases o with
  | addDataHandler =>
      cases he
      exact ⟨t, { hk with sized := fun _ => h.1 }, h.2⟩
  | call c =>
      cases c with
      | writeStream payload =>
          obtain ⟨⟨frame, rfl, hseq, hlt, hsize, hshort, hok⟩, herror⟩ := h
          rw [Rig.perform] at he
          split at he
          · cases he
            exact ⟨_, hk.write frame hseq hlt hsize hshort, hok⟩
          · cases he
            exact ⟨t, hk, herror _⟩
      | _ =>
          cases he
          exact ⟨t, hk, h _⟩
  | monotonic =>
      cases he
      exact ⟨t, hk, h _⟩
  | outstanding =>
      cases he
      refine ⟨{ t with room := decide ((s.stats.outstanding : Int) < args.maxOutstanding) }, ?_, h _⟩
      exact { hk with room := fun hroom => of_decide_eq_true hroom }
  | markTx seq sentTime =>
      cases he
      obtain ⟨rfl, -, hroom, hr⟩ := h
      exact ⟨_, hk.markTx sentTime hroom, hr⟩
  | print line =>
      cases he
      obtain ⟨hnone, hr⟩ := h
      refine ⟨t, { hk with printed := fun line' hline snapshot hs => ?_ }, hr⟩
      rcases List.mem_append.mp hline with hold | hnew
      · exact hk.printed line' hold snapshot hs
      · rw [List.mem_singleton.mp hnew, hnone] at hs
        cases hs
  | printSnapshot line elapsed =>
      cases he
      obtain ⟨htaken, hr⟩ := h
      refine ⟨t, { hk with printed := fun line' hline snapshot hs => ?_ }, hr⟩
      rcases List.mem_append.mp hline with hold | hnew
      · exact hk.printed line' hold snapshot hs
      · rw [List.mem_singleton.mp hnew, htaken] at hs
        exact ⟨s.history, elapsed, List.prefix_rfl, hk.stats ▸ (Option.some.inj hs).symm⟩
  | sleep duration =>
      cases he
      exact ⟨t, hk, h⟩
  | close =>
      cases he
      exact ⟨t, hk, h⟩

theorem Known.receive (h : Known args s t) (hh : s.handler = true) (hf : s.found = []) (chunk : List Byte) (now : ℚ) :
    Known args (s.receive chunk now) t := by
  obtain ⟨hrest, hscan⟩ := scan_feed (p := s.parserState) (h.frameSize ▸ h.sized hh) chunk
  rw [h.frameSize] at hrest hscan
  refine { h with frameSize := h.frameSize, rest := hrest, reads := fun more => ?_ }
  have hreads := h.reads (chunk ++ more)
  rw [hf, List.append_nil, ← List.append_assoc, ← List.append_assoc, hscan, ← List.append_assoc] at hreads
  exact hreads

theorem Known.markNext (h : Known args s t) : Known args s.markNext t := by
  rw [Rig.markNext]
  split
  · exact h
  · rename_i frame rest hf
    have hless : (((s.mark (.rx frame s.foundAt)).stats.outstanding : Nat) : Int) ≤ s.stats.outstanding := by
      exact_mod_cast outstanding_markRx s.stats frame s.foundAt
    refine { h with
      stats := ?_
      sent := ?_
      reads := fun more => ?_
      room := fun hr => ?_
      gate := fun hg => ?_
      printed := h.printed_later _ }
    · show StreamTest.mark s.stats (.rx frame s.foundAt) = accounts args.size (s.history ++ [.rx frame s.foundAt])
      rw [accounts_concat, h.stats]
    · exact (sent_rx _ _ _).trans h.sent
    · have hreads := h.reads more
      rw [hf] at hreads
      show _ = handled (s.history ++ [.rx frame s.foundAt]) ++ rest ++ _
      rw [handled_rx, List.append_assoc (handled s.history), List.singleton_append]
      exact hreads
    · exact Int.lt_of_le_of_lt hless (h.room hr)
    · exact Int.le_trans hless (h.gate hg)

end

/-- A run leads to a state that a ledger tells of, and the main thread keeps to it. -/
def Told (args : Args) (s : Running) : Prop := ∃ t, Known args s.rig t ∧ Keeps args s.main t

theorem told_start (args : Args) : Told args (.start args) := ⟨.init, known_init args, keeps_main args⟩

theorem Told.step {s : Running} (h : Told args s) (e : Event) : Told args (s.step e) := by
  obtain ⟨t, hk, hm⟩ := h
  cases e with
  | main w => exact wp_turn spec_monotone (spec_sound w) hk hm
  | receive chunk now =>
      rw [Running.step]
      split
      · rename_i hcalled
        exact ⟨t, hk.receive hcalled.1 hcalled.2 chunk now, hm⟩
      · exact ⟨t, hk, hm⟩
  | markNext => exact ⟨t, hk.markNext, hm⟩

theorem told_run (args : Args) (es : List Event) : Told args (Runs.run Running.step (.start args) es) :=
  Runs.run_invariant (P := Told args) (fun _ e h => h.step e) (told_start args) es

end BleAtHost.StreamTest
