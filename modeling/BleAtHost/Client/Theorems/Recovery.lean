import BleAtHost.Client.Lemmas.Recovery
import BleAtHost.Client.Lemmas.Scan

/-!
# Recovery of control mode

`recover_control_mode` tries `AT` first and then `+++`. The first try fails at once if `_data_mode` is set, and one that
succeeds leaves `_exit_pending` as it was, so that the call keeps its promise only if neither flag was set before it.
-/

namespace BleAtHost.Client

open Prog

/-! ## What should hold -/

/-- The call has returned with both flags cleared after a `+OK`, or has given up after `+++`. -/
inductive Settled (s : Calling) : Prop
  | returned (program : s.2 = .pure ()) (clear : Clear s.1.1) (ok : LastRead (str "+OK") s.1.2)
  | timedOut (program : s.2 = .raise .timeoutError) (wrote : .wrote (ascii "+++") ∈ s.1.2)

/-- The call ends in every fair schedule, and as it should. A negative duration is refused by `time.sleep`. -/
def Recovers (c : Client) (timeout : Int) (guardTime : Nat) : Prop :=
  ∀ σ, Fair σ → (∃ n, Program.ended (course c (recoverControlMode timeout guardTime) σ n).2 = true) ∧
    ∀ n, Program.ended (course c (recoverControlMode timeout guardTime) σ n).2 = true →
      Settled (course c (recoverControlMode timeout guardTime) σ n)

/-- The reader has found the exit event and is about to clear `_exit_pending`. -/
def Exiting (c : Client) : Prop :=
  match c.reader with
  | .got chunk => c.exitPending = true ∧ .clearExitPending ∈ (handleExitPendingChunk c.exitBuffer chunk).1
  | .busy todo => .clearExitPending ∈ todo
  | _ => False

variable {α : Type} {c : Client} {timeout : Int} {guardTime : Nat}

/-! ## With both flags clear -/

theorem ended_result {e : Except PyError Unit} : Program.ended (result e : Program Unit) = true := by
  cases e with
  | error e => rfl
  | ok a => rfl

theorem result_of_ended {p : Program Unit} (h : Program.ended p = true) : ∃ e, p = result e := by
  cases p with
  | pure a => exact ⟨.ok a, rfl⟩
  | raise e => exact ⟨.error e, rfl⟩
  | op o next => cases h
  | loop body s next => cases h

/-- The flags stay clear, and the program keeps to what is promised. -/
theorem course_settles (h : Clear c) (timeout : Int) (guardTime : Nat) (σ : Nat → Turn) (n : Nat) :
    ∃ done, RecoveryKnown (course c (recoverControlMode timeout guardTime) σ n).1 done ∧
      (course c (recoverControlMode timeout guardTime) σ n).2.wp recoverySpec Settles done := by
  induction n with
  | zero => exact ⟨[], ⟨h, rfl⟩, wp_settles_recoverControlMode timeout guardTime⟩
  | succ n ih =>
      obtain ⟨done, ⟨hclear, hdone⟩, hwp⟩ := ih
      rw [course]
      cases σ n with
      | arrive bytes => exact ⟨done, ⟨⟨hclear.dataMode, hclear.exitPending⟩, hdone⟩, hwp⟩
      | reader count => exact ⟨done, ⟨hclear.readerStep count, hdone⟩, hwp⟩
      | main w => exact wp_turn recoverySpec_monotone (recoverySpec_sound w) ⟨hclear, hdone⟩ hwp

theorem recovers_of_clear (h : Clear c) : Recovers c timeout guardTime := by
  refine fun σ fair => ⟨?_, fun n hend => ?_⟩
  · obtain ⟨n, -, e, -, hend⟩ := ends_recoverControlMode (N := 0) fair timeout guardTime _ context_id 0 (Nat.le_refl 0) rfl
    exact ⟨n, hend ▸ ended_result⟩
  · obtain ⟨done, ⟨hclear, hdone⟩, hwp⟩ := course_settles h timeout guardTime σ n
    obtain ⟨e, he⟩ := result_of_ended hend
    subst hdone
    rw [he] at hwp
    cases e with
    | ok a => exact .returned he hclear hwp
    | error e => exact .timedOut (hwp.1 ▸ he) hwp.2

/-! ## Turns that lead somewhere -/

/-- Some turns lead from `s` to `t`, whatever was recorded before. -/
def Reaches (s t : Client × Program Unit) : Prop :=
  ∀ done, ∃ (turns : List Turn) (done' : List Did), turns.foldl Turn.step ((s.1, done), s.2) = ((t.1, done'), t.2)

theorem Reaches.refl (s : Client × Program Unit) : Reaches s s := fun done => ⟨[], done, rfl⟩

theorem Reaches.trans {s t u : Client × Program Unit} (h : Reaches s t) (h' : Reaches t u) : Reaches s u := by
  intro done
  obtain ⟨turns, done', he⟩ := h done
  obtain ⟨turns', done'', he'⟩ := h' done'
  exact ⟨turns ++ turns', done'', by rw [List.foldl_append, he, he']⟩

/-- The main thread alone makes any beginning a fair schedule. -/
theorem Recovers.settled (h : Recovers c timeout guardTime) {c' : Client} {program : Program Unit}
    (hs : Reaches (c, recoverControlMode timeout guardTime) (c', program)) (hend : Program.ended program = true) :
    ∃ done, Settled ((c', done), program) := by
  obtain ⟨turns, done, he⟩ := hs []
  have hcourse := (course_finish c (recoverControlMode timeout guardTime) turns).trans he
  have hsettled := (h _ (fair_finish turns)).2 turns.length
  rw [hcourse] at hsettled
  exact ⟨done, hsettled hend⟩

/-- A turn of the main thread in which the clock shows zero. -/
def idle : Choice := ⟨0, false, 0⟩

/-- A turn of the main thread in a part of its program. -/
theorem reaches_part {K : Program α → Program Unit} (hK : Context K) {p p' : Program α} (hne : ¬p.Ended) {c' : Client}
    {w : Choice} (hp : ∀ done, ∃ done', p.turn (recorded w) (c, done) = ((c', done'), p')) : Reaches (c, K p) (c', K p') := by
  intro done
  obtain ⟨done', he⟩ := hp done
  refine ⟨[.main w], done', ?_⟩
  rw [List.foldl_cons, List.foldl_nil, Turn.step, hK _ _ _ _ hne, he]

theorem reaches_drain {K : Program Unit → Program Unit} (hK : Context K) (c : Client) :
    Reaches (c, K drainLineQueue) ({ c with lineQueue := [] }, K (.pure ())) := by
  have hpass : ∀ c, Reaches (c, K (drainAt false))
      ({ c with lineQueue := c.lineQueue.tail }, K (if c.lineQueue = [] then .pure () else drainAt false)) := by
    intro c
    have hloop : Reaches (c, K (drainAt false)) (c, K (drainAt true)) :=
      reaches_part (w := idle) hK (not_ended_drainAt false) fun done => ⟨done, rfl⟩
    exact hloop.trans (reaches_part (w := idle) hK (not_ended_drainAt true) fun done => ⟨done, turn_drainAt _ _ _⟩)
  have hfirst := hpass c
  induction hq : c.lineQueue generalizing c with
  | nil =>
      rw [hq] at hfirst
      exact hfirst
  | cons line rest ih =>
      rw [hq, if_neg (List.cons_ne_nil line rest)] at hfirst
      exact hfirst.trans (ih _ (hpass _) rfl)

/-- A line is there that meets the predicate. -/
theorem reaches_readUntil {K : Program Str → Program Unit} (hK : Context K) (predicate : Str → Bool) {timeout : Int}
    {line : Str} {rest : List Str} (hq : c.lineQueue = line :: rest) (hline : predicate line = true)
    (ht : 0 < timeout) : Reaches (c, K (readUntil predicate timeout)) ({ c with lineQueue := rest }, K (.pure line)) := by
  have hpositive : ¬0 + timeout - 0 ≤ 0 := by omega
  have hbegin : Reaches (c, K (readUntil predicate timeout)) (c, K (awaiting (0 + timeout) predicate .pure)) :=
    reaches_part (w := idle) hK (not_ended_op Op.monotonic _) fun _ => ⟨_, rfl⟩
  have hloop : Reaches (c, K (awaiting (0 + timeout) predicate .pure))
      (c, K (Prog.bind (awaitBody (0 + timeout) predicate ()) (again (awaitBody (0 + timeout) predicate) .pure))) :=
    reaches_part (w := idle) hK (not_ended_loop _ _ _) fun _ => ⟨_, rfl⟩
  have hclock : Reaches
      (c, K (Prog.bind (awaitBody (0 + timeout) predicate ()) (again (awaitBody (0 + timeout) predicate) .pure)))
      (c, K (.op (.getLine (0 + timeout - 0)) fun
        | none => .raise .timeoutError
        | some line => if predicate line then .pure line else awaiting (0 + timeout) predicate .pure)) := by
    refine reaches_part (w := idle) hK (not_ended_op Op.monotonic _) fun done => ⟨done ++ [], ?_⟩
    show ((c, done ++ []), Prog.bind (if 0 + timeout - 0 ≤ 0 then _ else _) _) = _
    rw [if_neg hpositive]
    refine congrArg (Prod.mk _) (congrArg (Prog.op _) (funext fun line => ?_))
    cases line with
    | none => rfl
    | some line =>
        show Prog.bind (if predicate line then _ else _) _ = if predicate line then _ else _
        split
        · rfl
        · rfl
  refine hbegin.trans (hloop.trans (hclock.trans (reaches_part (w := idle) hK (not_ended_op _ _) fun done =>
    ⟨done ++ [.read line], ?_⟩)))
  simp only [turn, recorded, perform, hq, getFrom, Option.map_some]
  rw [if_pos hline]
  rfl

/-- The reader in control mode processes what has arrived. -/
theorem reaches_bytes (program : Program Unit) (hr : c.reader = .top) (hd : c.dataMode = false) :
    Reaches (c, program) ({ c.processControlBytes c.input with input := [], reader := .top }, program) := by
  induction hi : c.input generalizing c with
  | nil =>
      have hc : { c with input := [], reader := .top } = c := by rw [← hi, ← hr]
      rw [processControlBytes_nil, hc]
      exact .refl _
  | cons ch rest ih =>
      have hbyte : Reaches (c, program) ({ c.processControlByte ch with input := rest, reader := .top }, program) := by
        refine fun done => ⟨[.reader 1, .reader 1, .reader 1, .reader 1], done, ?_⟩
        have hsteps : (((c.readerStep 1).readerStep 1).readerStep 1).readerStep 1 =
            { ({ c with input := rest, reader := .busy [.control ch] } : Client).processControlByte ch with
              reader := .top } := by
          simp [readerStep, hr, hd, hi, act]
        rw [processControlByte_frame] at hsteps
        exact congrArg (fun c => ((c, done), program)) hsteps
      obtain ⟨buffer, lines, he⟩ := processControlByte_withLines c ch
      have hmode : (c.processControlByte ch).dataMode = false := by rw [he]; exact hd
      have hrest := ih (c := { c.processControlByte ch with input := rest, reader := .top }) rfl hmode rfl
      rw [processControlBytes_frame] at hrest
      rw [processControlBytes_cons]
      exact hbyte.trans hrest

/-- A late `+OK`. -/
theorem reaches_ok (program : Program Unit) (hr : c.reader = .top) (hd : c.dataMode = false) (hi : c.input = [])
    (hb : c.lineBuffer = []) : Reaches (c, program) ({ c with lineQueue := c.lineQueue ++ [str "+OK"] }, program) := by
  have harrive : Reaches (c, program) ({ c with input := ascii "+OK" ++ [13, 10] }, program) := by
    refine fun done => ⟨[.arrive (ascii "+OK" ++ [13, 10])], done, ?_⟩
    rw [List.foldl_cons, List.foldl_nil, Turn.step, hi, List.nil_append]
  have htext : decode (ascii "+OK") = '+' :: (['O'] ++ ['K']) := by decide
  have hline : c.processControlBytes (ascii "+OK" ++ [13, 10]) = c.withLines [] [str "+OK"] :=
    processControlBytes_line hb (by decide) (by decide) (by decide) htext (by decide) (by decide)
  have hread := reaches_bytes (c := { c with input := ascii "+OK" ++ [13, 10] }) program hr hd
  have hframe := processControlBytes_frame c (ascii "+OK" ++ [13, 10]) (ascii "+OK" ++ [13, 10]) c.reader
  have hend : { c.withLines [] [str "+OK"] with input := [], reader := .top } =
      { c with lineQueue := c.lineQueue ++ [str "+OK"] } := by
    rw [withLines, ← hr, ← hi, hi, ← hb]
  rw [hframe, hline, hend] at hread
  exact harrive.trans hread

/-! ## With a flag set -/

/-- The first resynchronisation raises what nothing catches. -/
theorem fails_dataMode (hd : c.dataMode = true) : ¬Recovers c timeout guardTime := by
  have hc : { c with dataMode := true } = c := by rw [← hd]
  have hraise : Reaches (c, recoverControlMode timeout guardTime)
      (c, .raise (.runtimeError (str "Data mode is still active"))) := by
    rw [← hc]
    exact fun done => ⟨[.main idle], done ++ [], rfl⟩
  intro h
  obtain ⟨done, hsettled⟩ := h.settled hraise rfl
  cases hsettled with
  | returned hprogram => cases hprogram
  | timedOut hprogram => cases hprogram

/-- What `recover_control_mode` does after the first resynchronisation. -/
def recoverNext (timeout guardTime : Int) : Except PyError Unit → Program Unit
  | .ok _ => .pure ()
  | .error .timeoutError => forceControlMode timeout guardTime
  | .error e => .raise e

/-- What the loop of `sync_control_mode` does after a wait for `+OK`. -/
def syncNext (deadline : Int) (attempts : Nat) : Except PyError Str → Program Bool
  | .ok _ => .pure true
  | .error .timeoutError => do
      let now ← ask .monotonic
      if deadline ≤ now then return false else syncAttempts deadline attempts
  | .error e => .raise e

def syncEnd (synced : Bool) : Program Unit := if synced then .pure () else .raise .timeoutError

/-- Around the loop of `sync_control_mode` in `recover_control_mode`. -/
def aroundAttempts (timeout guardTime : Int) (p : Program Bool) : Program Unit :=
  Prog.bind (attempt (Prog.bind p syncEnd)) (recoverNext timeout guardTime)

/-- Around the draining of the queue before. -/
def aroundDrain (timeout guardTime : Int) (p : Program Unit) : Program Unit :=
  Prog.bind (attempt (Prog.bind p fun _ => do
    let now ← ask .monotonic
    syncAttempts (now + timeout) 2 >>= syncEnd)) (recoverNext timeout guardTime)

theorem context_aroundAttempts (timeout guardTime : Int) : Context (aroundAttempts timeout guardTime) :=
  ((context_id.bind (recoverNext timeout guardTime)).attempt).bind syncEnd

theorem context_aroundDrain (timeout guardTime : Int) : Context (aroundDrain timeout guardTime) :=
  ((context_id.bind (recoverNext timeout guardTime)).attempt).bind _

theorem reaches_aroundDrain (hd : c.dataMode = false) : Reaches (c, recoverControlMode timeout guardTime)
    ({ c with input := [], lineBuffer := [] }, aroundDrain timeout guardTime drainLineQueue) := by
  intro done
  have hc : { c with dataMode := false } = c := by rw [← hd]
  have hturns : ∀ discarded, [.main idle, .main ⟨0, false, discarded⟩, .main idle].foldl Turn.step
      (({ c with dataMode := false }, done), recoverControlMode timeout guardTime) =
      (({ c with input := c.input.drop discarded, lineBuffer := [], dataMode := false }, done ++ [] ++ [] ++ []),
        aroundDrain timeout guardTime drainLineQueue) := fun _ => rfl
  have hall := hturns c.input.length
  have hmode : { c with input := [], lineBuffer := [], dataMode := false } = { c with input := [], lineBuffer := [] } := by
    rw [hd]
  rw [List.drop_length, hc, hmode] at hall
  exact ⟨_, _, hall⟩

theorem reaches_returned (timeout : Int) (guardTime : Nat) (hq : c.lineQueue = [str "+OK"]) :
    ∃ c', Reaches (c, aroundDrain timeout guardTime (.pure ())) (c', .pure ()) ∧ c'.exitPending = c.exitPending := by
  have hbegin : Reaches (c, aroundDrain timeout guardTime (.pure ()))
      ({ c with output := c.output ++ (ascii "AT" ++ [13, 10]) }, aroundAttempts timeout guardTime
        (Prog.bind (attempt (readUntil (fun item => item == str "+OK") (max 200 (0 + timeout - 0)))) (syncNext (0 + timeout) 1))) :=
    fun done => ⟨[.main idle, .main idle, .main idle], done ++ [] ++ [.wrote (ascii "AT" ++ [13, 10])] ++ [], rfl⟩
  have hread := reaches_readUntil (c := { c with output := c.output ++ (ascii "AT" ++ [13, 10]) })
    ((context_aroundAttempts timeout guardTime).bind (syncNext (0 + timeout) 1)).attempt (fun item => item == str "+OK") hq
    (beq_self_eq_true _)
    (Int.lt_of_lt_of_le (by decide) (Int.le_max_left 200 (0 + timeout - 0)))
  exact ⟨_, hbegin.trans hread, rfl⟩

theorem foldl_act_flags {todo : List Effect} (hmem : .clearExitPending ∉ todo) (hd : c.dataMode = false) :
    (todo.foldl act c).dataMode = false ∧ (todo.foldl act c).exitPending = c.exitPending := by
  induction todo generalizing c with
  | nil => exact ⟨hd, rfl⟩
  | cons effect todo ih =>
      obtain ⟨hne, hrest⟩ := not_or.mp (mt List.mem_cons.mpr hmem)
      obtain ⟨hdata, hpending⟩ := act_flags c effect
      rw [hd, Bool.false_and] at hdata
      rw [decide_eq_true (Ne.symm hne), Bool.and_true] at hpending
      obtain ⟨hmode, hsame⟩ := ih hrest hdata
      exact ⟨hmode, hsame.trans hpending⟩

/-- The reader goes back to the top of its loop without a look at the input. -/
theorem reaches_top (program : Program Unit) (hexit : ¬Exiting c) (hd : c.dataMode = false) :
    ∃ c', Reaches (c, program) (c', program) ∧ c'.reader = .top ∧ c'.dataMode = false ∧ c'.exitPending = c.exitPending := by
  have hstep : ∀ c : Client, Reaches (c, program) (c.readerStep 0, program) := fun c done => ⟨[.reader 0], done, rfl⟩
  have hsteps : ∀ (k : Nat) (c : Client), Reaches (c, program) ((fun c : Client => c.readerStep 0)^[k] c, program) := by
    intro k
    induction k with
    | zero => exact fun c => .refl _
    | succ k ih => exact fun c => (hstep c).trans (ih _)
  have hbusy : ∀ (todo : List Effect) (c : Client), .clearExitPending ∉ todo → c.dataMode = false →
      ∃ c', Reaches ({ c with reader := .busy todo }, program) (c', program) ∧ c'.reader = .top ∧ c'.dataMode = false ∧
        c'.exitPending = c.exitPending := by
    intro todo c hmem hd
    have hall := hsteps (todo.length + 1) { c with reader := .busy todo }
    rw [iterate_busy] at hall
    exact ⟨_, hall, rfl, foldl_act_flags hmem hd⟩
  cases hr : c.reader with
  | top => exact ⟨c, .refl _, hr, hd, rfl⟩
  | control | data =>
      refine ⟨_, hstep c, ?_⟩
      simp [readerStep, hr, hd]
  | busy todo =>
      have hc : { c with reader := .busy todo } = c := by rw [← hr]
      rw [Exiting, hr] at hexit
      have hlast := hbusy todo c hexit hd
      rwa [hc] at hlast
  | got chunk =>
      have hgot : ∃ todo exitBuffer, c.readerStep 0 = { c with exitBuffer := exitBuffer, reader := .busy todo } ∧
          .clearExitPending ∉ todo := by
        simp only [Exiting, hr, not_and] at hexit
        cases he : c.exitPending with
        | true =>
            exact ⟨_, (handleExitPendingChunk c.exitBuffer chunk).2, by simp only [readerStep, hr, he, if_true], hexit he⟩
        | false => exact ⟨[.data chunk], c.exitBuffer, by simp [readerStep, hr, he], by simp⟩
      obtain ⟨todo, exitBuffer, he, hmem⟩ := hgot
      obtain ⟨c', hreach, hrest⟩ := hbusy todo { c with exitBuffer := exitBuffer } hmem hd
      exact ⟨c', (he ▸ hstep c).trans hreach, hrest⟩

/-- A `+OK` lets the first resynchronisation succeed, and nothing clears `_exit_pending`. -/
theorem fails_exitPending (hd : c.dataMode = false) (he : c.exitPending = true) (hexit : ¬Exiting c) :
    ¬Recovers c timeout guardTime := by
  intro h
  obtain ⟨c', hreader, htop, hmode, hpending⟩ := reaches_top (recoverControlMode timeout guardTime) hexit hd
  have hdrain := (reaches_aroundDrain hmode).trans
    (reaches_drain (context_aroundDrain timeout guardTime) { c' with input := [], lineBuffer := [] })
  have hok := reaches_ok (c := { c' with input := [], lineBuffer := [], lineQueue := [] })
    (aroundDrain timeout guardTime (.pure ())) htop hmode rfl rfl
  obtain ⟨c'', hreturn, hsame⟩ := reaches_returned timeout guardTime
    (c := { c' with input := [], lineBuffer := [], lineQueue := [str "+OK"] }) rfl
  obtain ⟨done, hsettled⟩ := h.settled (hreader.trans (hdrain.trans (hok.trans hreturn))) rfl
  cases hsettled with
  | returned _ hclear =>
      have hset : c''.exitPending = true := hsame.trans (hpending.trans he)
      rw [hclear.exitPending] at hset
      cases hset
  | timedOut hprogram => cases hprogram

/-! ## Exactly then -/

/-- A reader that is about to clear `_exit_pending` by itself is left out of the second half. -/
theorem recovers_iff (c : Client) (timeout : Int) (guardTime : Nat) :
    (Clear c → Recovers c timeout guardTime) ∧ (¬Exiting c → Recovers c timeout guardTime → Clear c) := by
  refine ⟨recovers_of_clear, fun hexit h => ?_⟩
  cases hd : c.dataMode with
  | true => exact absurd h (fails_dataMode hd)
  | false =>
      cases he : c.exitPending with
      | true => exact absurd h (fails_exitPending hd he hexit)
      | false => exact ⟨hd, he⟩

/-- Both flags are clear, but a stale line is queued, half a line is in the line buffer, and the rest of it is on its way. -/
def halfRead : Client :=
  { init with
    lineQueue := [str "+IND=MTU,0,247"]
    lineBuffer := ascii "+IND=LINK"
    input := ascii "PARA,0,6,0,400\r\n+OK\r\n"
    reader := .control }

theorem recovers_halfRead : Recovers halfRead 2000 1100 := (recovers_iff halfRead 2000 1100).1 ⟨rfl, rfl⟩

/-- In data mode, and while an exit is awaited. -/
theorem recovers_not_always :
    ¬Recovers { init with dataMode := true } 2000 1100 ∧ ¬Recovers { init with exitPending := true } 2000 1100 :=
  ⟨fails_dataMode rfl, fails_exitPending rfl rfl id⟩

end BleAtHost.Client
