import BleAtHost.Lib.Progress
import BleAtHost.Client.Schedule
import BleAtHost.Client.Lemmas.Calls
import BleAtHost.Client.Lemmas.Reader

/-!
# Resynchronising

What `sync_control_mode` and `recover_control_mode` can end with if no flag is set, and that they come to an end.
-/

namespace BleAtHost.Client

open Prog

/-! ## What they do -/

/-- While neither flag is set; `did` is the record. -/
def recoverySpec (done : List Did) : (o : Op) → (Answer o → List Did → Prop) → Prop
  | .setDataMode, _ | .setExitPending, _ => False
  | .write data, R => R () (done ++ [.wrote data])
  | .getLine _, R => R none done ∧ ∀ line, R (some line) (done ++ [.read line])
  | .getLineNowait, R => ∀ line, R line done
  | .getData _, R => ∀ chunk, R chunk done
  | .monotonic, R => ∀ now, R now done
  | .dataModeIsSet, R => R false done
  | .resetInputBuffer, R | .sleep _, R | .clearLineBuffer, R | .clearDataMode, R | .clearExitPending, R => R () done

theorem recoverySpec_monotone : Prog.Monotone recoverySpec := by
  intro done o R R' hr h
  cases o with
  | setDataMode | setExitPending => exact h
  | getLine => exact ⟨hr _ _ h.1, fun line => hr _ _ (h.2 line)⟩
  | getLineNowait => exact fun line => hr _ _ (h line)
  | getData => exact fun chunk => hr _ _ (h chunk)
  | monotonic => exact fun now => hr _ _ (h now)
  | _ => exact hr _ _ h

/-- Neither flag is set. -/
structure Clear (c : Client) : Prop where
  dataMode : c.dataMode = false
  exitPending : c.exitPending = false

/-- What is known of a call. -/
def RecoveryKnown (s : Recorded) (done : List Did) : Prop := Clear s.1 ∧ s.2 = done

theorem recoverySpec_sound (w : Choice) : Sound recoverySpec (recorded w) RecoveryKnown := by
  rintro ⟨c, done⟩ s' _ o a R ⟨hclear, rfl⟩ h he
  obtain ⟨⟨a', c'⟩, hp, hs⟩ := Option.map_eq_some_iff.mp he
  cases hs
  cases o with
  | setDataMode | setExitPending => exact h.elim
  | getLine timeout =>
      obtain ⟨answer, -, hc⟩ := Option.map_eq_some_iff.mp hp
      cases hc
      refine ⟨_, ⟨⟨hclear.1, hclear.2⟩, rfl⟩, ?_⟩
      cases answer.1 with
      | none => simpa only [did, List.append_nil] using h.1
      | some line => exact h.2 line
  | getLineNowait =>
      obtain ⟨answer, -, hc⟩ := Option.map_eq_some_iff.mp hp
      cases hc
      exact ⟨done, ⟨⟨hclear.1, hclear.2⟩, List.append_nil _⟩, h answer.1⟩
  | getData timeout =>
      obtain ⟨answer, -, hc⟩ := Option.map_eq_some_iff.mp hp
      cases hc
      exact ⟨done, ⟨⟨hclear.1, hclear.2⟩, List.append_nil _⟩, h answer.1⟩
  | monotonic =>
      cases hp
      exact ⟨done, ⟨hclear, List.append_nil _⟩, h _⟩
  | dataModeIsSet =>
      cases hp
      refine ⟨done, ⟨hclear, List.append_nil _⟩, ?_⟩
      rw [hclear.dataMode]
      exact h
  | clearDataMode =>
      cases hp
      exact ⟨done, ⟨⟨rfl, hclear.2⟩, List.append_nil _⟩, h⟩
  | clearExitPending =>
      cases hp
      exact ⟨done, ⟨⟨hclear.1, rfl⟩, List.append_nil _⟩, h⟩
  | write data =>
      cases hp
      exact ⟨_, ⟨⟨hclear.1, hclear.2⟩, rfl⟩, h⟩
  | resetInputBuffer | sleep | clearLineBuffer =>
      cases hp
      exact ⟨done, ⟨⟨hclear.1, hclear.2⟩, List.append_nil _⟩, h⟩

/-- It returns in `K` or times out, and the record has only grown. -/
def Upto {α : Type} (done : List Did) (K : α → List Did → Prop) : Except PyError α → List Did → Prop
  | .ok a, done' => done <+: done' ∧ K a done'
  | .error e, done' => done <+: done' ∧ e = .timeoutError

section
variable {α β : Type} {done : List Did}

theorem Upto.trans {done' : List Did} {K : α → List Did → Prop} (hd : done <+: done') :
    ∀ r done'', Upto done' K r done'' → Upto done K r done'' := by
  rintro (e | a) done'' ⟨hgrown, h⟩
  · exact ⟨hd.trans hgrown, h⟩
  · exact ⟨hd.trans hgrown, h⟩

theorem wp_upto_bind {p : Program α} {f : α → Program β} {K : α → List Did → Prop} {L : β → List Did → Prop}
    (hp : p.wp recoverySpec (Upto done K) done)
    (hf : ∀ a done', K a done' → (f a).wp recoverySpec (Upto done' L) done') :
    (p >>= f).wp recoverySpec (Upto done L) done := by
  refine wp_bind recoverySpec_monotone (wp_mono recoverySpec_monotone hp ?_)
  rintro (e | a) done' ⟨hgrown, h⟩
  · exact ⟨hgrown, h⟩
  · exact wp_mono recoverySpec_monotone (hf a done' h) (Upto.trans hgrown)

/-- The last line that was read. -/
def LastRead (line : Str) (done : List Did) : Prop := done.getLast? = some (.read line)

theorem wp_upto_readUntil (predicate : Str → Bool) (timeout : Int) :
    (readUntil predicate timeout).wp recoverySpec
      (Upto done fun line done' => predicate line ∧ LastRead line done') done := by
  intro now
  refine ⟨fun _ done' => done <+: done', List.prefix_refl _, ?_⟩
  intro _ done' hgrown now'
  show Prog.wp recoverySpec (if now + timeout - now' ≤ 0 then _ else _) _ done'
  split
  · exact ⟨hgrown, rfl⟩
  · refine ⟨⟨hgrown, rfl⟩, fun line => ?_⟩
    have hread : done <+: done' ++ [.read line] := hgrown.trans (List.prefix_append _ _)
    show Prog.wp recoverySpec (if predicate line then _ else _) _ _
    split
    · rename_i hline
      exact ⟨hread, hline, List.getLast?_concat⟩
    · exact hread

theorem wp_drainLineQueue_bind {f : Unit → Program β} {Q : Except PyError β → List Did → Prop}
    (hf : (f ()).wp recoverySpec Q done) : (drainLineQueue >>= f).wp recoverySpec Q done := by
  have hdrain : drainLineQueue.wp recoverySpec (After f recoverySpec Q) done := by
    refine ⟨fun _ done' => done' = done, rfl, ?_⟩
    rintro _ _ rfl line
    cases line with
    | none => exact hf
    | some line => rfl
  exact wp_bind recoverySpec_monotone hdrain

theorem writeLine_at : writeLine (str "AT") = ask (.write (ascii "AT" ++ [13, 10])) := by
  have hencode : encodeAscii (str "AT") = some (ascii "AT") := by decide
  rw [writeLine, hencode]

/-- A loop that has stopped with a `+OK` has just read it. -/
theorem wp_upto_syncAttempts (deadline : Int) (attempts : Nat) :
    (syncAttempts deadline attempts).wp recoverySpec
      (Upto done fun synced done' => synced → LastRead (str "+OK") done') done := by
  induction attempts generalizing done with
  | zero => exact ⟨List.prefix_refl _, fun h => by cases h⟩
  | succ attempts ih =>
      have hwrote : done <+: done ++ [.wrote (ascii "AT" ++ [13, 10])] := List.prefix_append _ _
      rw [syncAttempts, writeLine_at]
      refine wp_ask_bind (wp_ask_bind fun now => ?_)
      refine wp_bind recoverySpec_monotone (wp_attempt recoverySpec_monotone
        (wp_mono recoverySpec_monotone (wp_upto_readUntil _ _) ?_))
      rintro (e | line) done' ⟨hgrown, h⟩
      · subst h
        refine wp_ask_bind fun now' => ?_
        dsimp only
        split
        · exact ⟨hwrote.trans hgrown, fun h => by cases h⟩
        · exact wp_mono recoverySpec_monotone ih (Upto.trans (hwrote.trans hgrown))
      · obtain ⟨hline, hread⟩ := h
        rw [eq_of_beq hline] at hread
        exact ⟨hwrote.trans hgrown, fun _ => hread⟩

theorem wp_upto_syncControlMode (timeout : Int) (attempts : Nat) :
    (syncControlMode timeout attempts).wp recoverySpec (Upto done fun _ => LastRead (str "+OK")) done := by
  refine wp_ask_bind (wp_ask_bind (wp_ask_bind (wp_drainLineQueue_bind (wp_ask_bind fun now => ?_))))
  refine wp_upto_bind (wp_upto_syncAttempts _ _) ?_
  rintro (_ | _) done'' h
  · exact ⟨List.prefix_refl _, rfl⟩
  · exact ⟨List.prefix_refl _, h rfl⟩

theorem wp_upto_forceControlMode (timeout guardTime : Int) :
    (forceControlMode timeout guardTime).wp recoverySpec
      (fun r done' => .wrote (ascii "+++") ∈ done' ∧ Upto done (fun _ => LastRead (str "+OK")) r done') done := by
  have hwrote : done <+: done ++ [.wrote (ascii "+++")] := List.prefix_append _ _
  have hsync : ∀ done', done ++ [.wrote (ascii "+++")] <+: done' → (do
      ask .clearExitPending
      ask .clearDataMode
      syncControlMode (max timeout 3000) 3 : Program Unit).wp recoverySpec
        (fun r done' => .wrote (ascii "+++") ∈ done' ∧ Upto done (fun _ => LastRead (str "+OK")) r done') done' := by
    intro done' hgrown
    refine wp_ask_bind (wp_ask_bind (wp_mono recoverySpec_monotone (wp_upto_syncControlMode _ _) ?_))
    intro r done'' h
    have hall := Upto.trans hgrown r done'' h
    refine ⟨?_, Upto.trans hwrote r done'' hall⟩
    cases r with
    | _ => exact hall.1.subset (List.mem_append_right _ List.mem_cons_self)
  refine wp_ask_bind (wp_ask_bind (wp_drainLineQueue_bind ?_))
  refine wp_ask_bind (wp_ask_bind (wp_ask_bind (wp_ask_bind ?_)))
  refine wp_bind recoverySpec_monotone (wp_attempt recoverySpec_monotone
    (wp_mono recoverySpec_monotone (wp_upto_readUntil _ _) ?_))
  rintro (e | line) done' ⟨hgrown, h⟩
  · subst h
    exact hsync done' hgrown
  · exact hsync done' hgrown

/-- What is promised of a call of `recover_control_mode`. -/
def Settles : Except PyError Unit → List Did → Prop
  | .ok _, done => LastRead (str "+OK") done
  | .error e, done => e = .timeoutError ∧ .wrote (ascii "+++") ∈ done

theorem wp_settles_recoverControlMode (timeout guardTime : Int) :
    (recoverControlMode timeout guardTime).wp recoverySpec Settles done := by
  refine wp_bind recoverySpec_monotone (wp_attempt recoverySpec_monotone
    (wp_mono recoverySpec_monotone (wp_upto_syncControlMode timeout 2) ?_))
  rintro (e | _) done' ⟨-, h⟩
  · subst h
    refine wp_mono recoverySpec_monotone (wp_upto_forceControlMode timeout guardTime) ?_
    rintro (e | _) done'' ⟨hwrote, -, h⟩
    · exact ⟨h, hwrote⟩
    · exact h
  · exact h

end

/-! ## The reader in between -/

theorem Clear.readerStep {c : Client} (h : Clear c) (n : Nat) : Clear (c.readerStep n) := by
  obtain ⟨hdata, hexit⟩ := readerStep_flags c n
  exact ⟨Bool.eq_false_iff.mpr (mt hdata (Bool.eq_false_iff.mp h.dataMode)),
    Bool.eq_false_iff.mpr (mt hexit (Bool.eq_false_iff.mp h.exitPending))⟩

/-! ## Lines to come -/

/-- No more lines than this come of an effect. -/
def Effect.lines : Effect → Nat
  | .event _ | .control _ => 1
  | _ => 0

def Reader.lines : Reader → Nat
  | .got chunk => chunk.length
  | .busy todo => (todo.map Effect.lines).sum
  | _ => 0

/-- No more lines than this are in the queue or come of what has arrived. -/
def backlog (c : Client) : Nat := c.lineQueue.length + c.input.length + c.exitBuffer.length + c.reader.lines

theorem lines_control (bytes : List Byte) : ((bytes.map Effect.control).map Effect.lines).sum = bytes.length := by
  induction bytes with
  | nil => rfl
  | cons ch bytes ih =>
      rw [List.map_cons, List.map_cons, List.sum_cons, ih, List.length_cons, Nat.add_comm]
      rfl

theorem Returns.lines {buffer rest : List Byte} {effects : List Effect} (h : Returns buffer effects rest) :
    (effects.map Effect.lines).sum + rest.length ≤ buffer.length := by
  induction h with
  | empty => exact Nat.le_refl 0
  | @event buffer hf =>
      obtain ⟨after, hafter⟩ := drop_find hf
      have hlen := congrArg List.length hafter
      have hevent : EXIT_EVENT.length = 17 := by decide
      rw [List.drop_zero, List.length_append] at hlen
      simp only [exitEffects, List.map_append, List.sum_append, lines_control, List.length_drop]
      simp [Effect.lines]
      omega
  | @before buffer rest effects k hf next ih =>
      rw [List.length_drop] at ih
      simp only [List.map_cons, List.sum_cons, Effect.lines]
      omega
  | wait hf hflush => simp
  | @flush buffer rest effects hf hflush next ih =>
      rw [length_heldBack] at ih
      have hle := pendingExitPrefixLen_le buffer
      simp only [List.map_cons, List.sum_cons, Effect.lines]
      omega

theorem lines_act (c : Client) (effect : Effect) :
    (c.act effect).lineQueue.length ≤ c.lineQueue.length + effect.lines := by
  cases effect with
  | data chunk =>
      simp only [act, emitData]
      split
      · exact Nat.le_refl _
      · exact Nat.le_refl _
  | event line => simp [act, emitEvent, Effect.lines]
  | control ch =>
      simp only [act, processControlByte, Effect.lines]
      split
      · simp [emitEvent]
      · split
        · exact Nat.le_succ _
        · split
          · exact Nat.le_succ _
          · simp [emitEvent]
  | clearExitPending => exact Nat.le_refl _
  | clearDataMode => exact Nat.le_refl _

theorem backlog_readerStep (c : Client) (n : Nat) : (c.readerStep n).backlog ≤ c.backlog := by
  have hsplit : ∀ k, (c.input.take k).length + (c.input.drop k).length = c.input.length := by
    intro k
    rw [← List.length_append, List.take_append_drop]
  cases hr : c.reader with
  | top =>
      cases hd : c.dataMode with
      | _ => simp [readerStep, hr, hd, backlog, Reader.lines]
  | control =>
      have hlen := hsplit (min n 1)
      simp only [readerStep, hr, backlog]
      split
      · simp only [Reader.lines]
        omega
      · simp only [Reader.lines, lines_control]
        omega
  | data =>
      have hlen := hsplit (min n 256)
      simp only [readerStep, hr, backlog]
      split
      · simp only [Reader.lines]
        omega
      · simp only [Reader.lines]
        omega
  | got chunk =>
      have hlines := (returns_handleExitPendingChunk c.exitBuffer chunk).lines
      rw [List.length_append] at hlines
      simp only [readerStep, hr, backlog]
      split
      · simp only [Reader.lines]
        omega
      · simp [Reader.lines, Effect.lines]
  | busy todo =>
      cases todo with
      | nil =>
          simp only [readerStep, hr, backlog, Reader.lines]
          simp
      | cons effect todo =>
          have hqueue := lines_act c effect
          obtain ⟨hbuffer, hinput⟩ := act_same c effect
          simp only [readerStep, hr, backlog, Reader.lines, List.map_cons, List.sum_cons, hinput, hbuffer]
          omega

/-! ## They come to an end -/

/-- Nothing is decided in the turns of the others. -/
def Turn.choice : Turn → Choice
  | .main w => w
  | _ => ⟨0, false, 0⟩

section
variable {c : Client} {program : Program Unit} {σ : Nat → Turn} {N : Nat} {α β : Type}

theorem run_course (fair : Fair σ) :
    Run (fun n => recorded (σ n).choice) (fun n => ∃ w, σ n = .main w) (course c program σ) where
  turn := by
    rintro n ⟨w, hw⟩
    rw [course, hw]
    rfl
  other := by
    intro n hn
    rw [course]
    cases hσ : σ n with
    | main w => exact absurd ⟨w, hσ⟩ hn
    | arrive bytes => rfl
    | reader k => rfl
  often n := by
    obtain ⟨m, hm, w, hw, -⟩ := fair.waits n
    exact ⟨m, hm, w, hw⟩

/-- Once its time is over every operation has an answer. -/
theorem recorded_isSome {w : Choice} (hw : w.expired = true) (s : Recorded) (o : Op) : (recorded w s o).isSome := by
  have hget : ∀ {α : Type} (queue : List α), (getFrom queue true).isSome := by
    intro α queue
    cases queue with
    | nil => rfl
    | cons item rest => rfl
  rw [recorded, Option.isSome_map]
  cases o with
  | getLine timeout =>
      rw [perform, Option.isSome_map, hw]
      exact hget _
  | getLineNowait =>
      rw [perform, Option.isSome_map]
      exact hget _
  | getData timeout =>
      rw [perform, Option.isSome_map, hw]
      exact hget _
  | _ => rfl

theorem answered (fair : Fair σ) (o : Op) (n : Nat) :
    ∃ m, n ≤ m ∧ (∃ w, σ m = .main w) ∧ ∀ s, (recorded (σ m).choice s o).isSome := by
  obtain ⟨m, hm, w, hw, hexpired⟩ := fair.waits n
  refine ⟨m, hm, ⟨w, hw⟩, fun s => ?_⟩
  rw [hw]
  exact recorded_isSome hexpired s o

theorem ends_ask_bind (fair : Fair σ) {o : Op} {f : Answer o → Program α} {Q : Except PyError α → Prop}
    (hf : ∀ a, Ends (course c program σ) N (f a) Q) : Ends (course c program σ) N (ask o >>= f) Q :=
  ends_op (run_course fair) (answered fair o) fun _ _ _ _ a _ _ => hf a

/-- Two programs that come to their ends one after the other. -/
theorem ends_then {p : Program α} {f : α → Program β} (hp : Ends (course c program σ) N p fun _ => True)
    (hf : ∀ a, Ends (course c program σ) N (f a) fun _ => True) :
    Ends (course c program σ) N (p >>= f) fun _ => True := by
  refine ends_bind (hp.mono ?_)
  rintro (e | a) -
  · trivial
  · exact hf a

/-- Once the deadline is over a pass ends in a timeout. -/
theorem ends_readUntil (fair : Fair σ) (predicate : Str → Bool) (timeout : Int) :
    Ends (course c program σ) N (readUntil predicate timeout) fun _ => True := by
  refine ends_ask_bind fair fun now => ends_forever (run_course fair) (fun _ => ?_) ?_
  · refine ends_ask_bind fair fun now' => ?_
    dsimp only
    split
    · exact ends_raise trivial
    · refine ends_ask_bind fair fun line => ?_
      split
      · exact ends_raise trivial
      · split
        · exact ends_pure trivial
        · exact ends_pure trivial
  · obtain ⟨M, hclock⟩ := fair.clock (now + timeout)
    refine ⟨M, fun _ => ends_op (run_course fair) (answered fair _) ?_⟩
    rintro m hm ⟨w, hw⟩ s now' s' he
    have hnow : now' = w.now := by
      rw [hw] at he
      cases he
      rfl
    have hover : now + timeout - now' ≤ 0 := by
      rw [hnow]
      exact Int.sub_nonpos_of_le (hclock m hm w hw)
    show Ends _ _ (if now + timeout - now' ≤ 0 then _ else _) _
    rw [if_pos hover]
    exact ends_raise fun _ he => by cases he

/-- The body of the loop of `_drain_line_queue`. -/
def drainBody (_ : Unit) : Program (Unit ⊕ Unit) := do
  match ← ask .getLineNowait with
  | some _ => return .inl ()
  | none => return .inr ()

/-- `_drain_line_queue` before its loop or before `get_nowait`. -/
def drainAt : Bool → Program Unit
  | false => drainLineQueue
  | true => Prog.bind (drainBody ()) (again drainBody .pure)

theorem not_ended_drainAt (asks : Bool) : ¬(drainAt asks).Ended := by
  cases asks with
  | false => exact not_ended_loop drainBody () _
  | true => exact not_ended_op Op.getLineNowait _

/-- A turn before `get_nowait`. -/
theorem turn_drainAt (w : Choice) (c : Client) (done : List Did) :
    (drainAt true).turn (recorded w) (c, done) =
      (({ c with lineQueue := c.lineQueue.tail }, done), if c.lineQueue = [] then .pure () else drainAt false) := by
  have hask : drainAt true = .op .getLineNowait fun line =>
      match line with
      | some _ => drainAt false
      | none => .pure () := congrArg (Prog.op Op.getLineNowait) (funext fun line => by cases line with | _ => rfl)
  rw [hask]
  cases hq : c.lineQueue with
  | nil => simp [turn, recorded, perform, getFrom, did, hq]
  | cons line rest => simp [turn, recorded, perform, getFrom, did, hq]

/-- Two turns take a line out of the backlog, and a byte that arrives adds at most one. -/
theorem drain_step {K : Program Unit → Program Unit} (hK : Context K) {s : Calling} {asks : Bool}
    (hp : s.2 = K (drainAt asks)) (turn : Turn) :
    (∃ e, (turn.step s).2 = K (result e)) ∨
      ∃ asks', (turn.step s).2 = K (drainAt asks') ∧
        2 * (turn.step s).1.1.backlog + turn.mine + asks.toNat ≤ 2 * s.1.1.backlog + 2 * turn.bytes + asks'.toNat := by
  obtain ⟨⟨c, done⟩, program⟩ := s
  subst hp
  cases turn with
  | arrive bytes =>
      refine .inr ⟨asks, rfl, ?_⟩
      simp only [Turn.step, Turn.bytes, Turn.mine, backlog, List.length_append]
      omega
  | reader count =>
      have hless := backlog_readerStep c count
      refine .inr ⟨asks, rfl, ?_⟩
      simp only [Turn.step, Turn.bytes, Turn.mine]
      omega
  | main w =>
      simp only [Turn.step, Turn.bytes, Turn.mine]
      rw [hK _ _ _ _ (not_ended_drainAt asks)]
      cases asks with
      | false => exact .inr ⟨true, rfl, Nat.le_refl _⟩
      | true =>
          rw [turn_drainAt]
          cases hq : c.lineQueue with
          | nil => exact .inl ⟨.ok (), by rw [if_pos rfl]; rfl⟩
          | cons line rest =>
              refine .inr ⟨false, by rw [if_neg (List.cons_ne_nil line rest)], ?_⟩
              simp only [backlog, hq, List.tail_cons, List.length_cons, Bool.toNat_true, Bool.toNat_false]
              omega

/-- The backlog is worked off in the end. -/
theorem ends_drainLineQueue (fair : Fair σ) :
    Ends (course c program σ) N drainLineQueue fun _ => True := by
  intro K hK n _ hp
  have hbound : ∀ m, n ≤ m → (∃ l, n ≤ l ∧ ∃ e, True ∧ (course c program σ l).2 = K (result e)) ∨
      ∃ asks, (course c program σ m).2 = K (drainAt asks) ∧
        2 * (course c program σ m).1.1.backlog + ∑ i ∈ Finset.Ico n m, (σ i).mine ≤
          2 * (course c program σ n).1.1.backlog + 2 * ∑ i ∈ Finset.Ico n m, (σ i).bytes + asks.toNat := by
    intro m hm
    induction m, hm using Nat.le_induction with
    | base => exact .inr ⟨false, hp, by simp⟩
    | succ m hm ih =>
        rw [Finset.sum_Ico_succ_top hm, Finset.sum_Ico_succ_top hm]
        rcases ih with hend | ⟨asks, hasks, hle⟩
        · exact .inl hend
        · rcases drain_step hK hasks (σ m) with ⟨e, hend⟩ | ⟨asks', hasks', hstep⟩
          · exact .inl ⟨m + 1, by omega, e, trivial, hend⟩
          · exact .inr ⟨asks', hasks', by rw [course]; omega⟩
  obtain ⟨m, hm, hturns⟩ := fair.catchesUp n (2 * (course c program σ n).1.1.backlog + 2)
  rcases hbound m hm with hend | ⟨asks, -, hle⟩
  · exact hend
  · have hasks := asks.toNat_le
    omega

theorem ends_attempt_readUntil (fair : Fair σ) (predicate : Str → Bool) (timeout : Int)
    {f : Except PyError Str → Program β} (hf : ∀ r, Ends (course c program σ) N (f r) fun _ => True) :
    Ends (course c program σ) N (attempt (readUntil predicate timeout) >>= f) fun _ => True :=
  ends_then (ends_attempt (ends_readUntil fair predicate timeout)) hf

theorem ends_syncAttempts (fair : Fair σ) (deadline : Int) (attempts : Nat) :
    Ends (course c program σ) N (syncAttempts deadline attempts) fun _ => True := by
  induction attempts with
  | zero => exact ends_pure trivial
  | succ attempts ih =>
      rw [syncAttempts, writeLine_at]
      refine ends_ask_bind fair fun _ => ends_ask_bind fair fun now => ends_attempt_readUntil fair _ _ fun r => ?_
      split
      · exact ends_pure trivial
      · refine ends_ask_bind fair fun now' => ?_
        split
        · exact ends_pure trivial
        · exact ih
      · exact ends_raise trivial

theorem ends_syncControlMode (fair : Fair σ) (timeout : Int) (attempts : Nat) :
    Ends (course c program σ) N (syncControlMode timeout attempts) fun _ => True := by
  refine ends_ask_bind fair fun set => ?_
  split
  · exact ends_raise trivial
  · refine ends_ask_bind fair fun _ => ends_ask_bind fair fun _ => ends_then (ends_drainLineQueue fair) fun _ => ?_
    refine ends_ask_bind fair fun now => ends_then (ends_syncAttempts fair _ _) fun synced => ?_
    split
    · exact ends_pure trivial
    · exact ends_raise trivial

theorem ends_forceControlMode (fair : Fair σ) (timeout guardTime : Int) :
    Ends (course c program σ) N (forceControlMode timeout guardTime) fun _ => True := by
  have hsync : Ends (course c program σ) N (do
      ask .clearExitPending
      ask .clearDataMode
      syncControlMode (max timeout 3000) 3 : Program Unit) fun _ => True :=
    ends_ask_bind fair fun _ => ends_ask_bind fair fun _ => ends_syncControlMode fair _ _
  refine ends_ask_bind fair fun _ => ends_ask_bind fair fun _ => ends_then (ends_drainLineQueue fair) fun _ => ?_
  refine ends_ask_bind fair fun _ => ends_ask_bind fair fun _ => ends_ask_bind fair fun _ => ends_ask_bind fair fun _ => ?_
  refine ends_attempt_readUntil fair _ _ fun r => ?_
  split
  · exact hsync
  · exact hsync
  · exact ends_raise trivial

theorem ends_recoverControlMode (fair : Fair σ) (timeout guardTime : Int) :
    Ends (course c program σ) N (recoverControlMode timeout guardTime) fun _ => True := by
  refine ends_then (ends_attempt (ends_syncControlMode fair timeout 2)) fun r => ?_
  split
  · exact ends_pure trivial
  · exact ends_forceControlMode fair timeout guardTime
  · exact ends_raise trivial

end

end BleAtHost.Client
