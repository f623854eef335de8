import BleAtHost.Client.Lemmas.Calls
import BleAtHost.Client.Lemmas.Reader
import BleAtHost.Main.Lemmas.Wire

/-!
# The mode of the client and of the firmware

The client leaves data mode when it reads `+IND=DATAMODE,0`. The firmware sends that line at an escape exit; a
disconnection ends data mode too, but sends `+IND=BLMD,0` only, and the client takes it for data.
-/

namespace BleAtHost.Client

open Main

variable {env : Env} {j : Joint} {c : Client}

/-- The reader waits for input. -/
def Reader.Idle : Reader → Prop
  | .top | .control | .data => True
  | _ => False

/-- No bytes are under way and the client has processed what it has read. -/
structure Quiet (j : Joint) : Prop where
  input : j.client.input = []
  output : j.client.output = []
  ctrl : j.fw.app.ctrlTxRing.data = []
  reader : j.client.reader.Idle

def ModesAgree (j : Joint) : Prop := Quiet j → j.client.dataMode → j.fw.app.appState = .dataMode

/-! ## When they agree -/

/-- The bytes under way to the client. -/
def Joint.stream (j : Joint) : List Byte := j.client.input ++ j.fw.app.ctrlTxRing.data

/-- The client waits for the exit event, all of the line fits into the control queue, and the reader is not about
to read the first byte of it as control text. -/
structure ExitAwaited (j : Joint) : Prop where
  pending : j.client.exitPending
  room : (dataModeLine false ++ newline).length ≤ j.fw.app.ctrlTxRing.spaceGet
  reader : j.client.reader = .control → j.stream ≠ []

/-- While the client's flag is set the connection is not lost in data mode, and every escape exit is awaited. The
flag is set while data mode, or the switch to it, is in force. -/
def Followed (j : Joint) : JointEvent → Prop
  | .firmware (.disconnected _) => j.client.dataMode → ¬Engaged j.fw.app
  | .firmware (.escapeGuardWork now) => j.client.dataMode → EscapeDue j.fw.app now → ExitAwaited j
  | .main _ => Program.next j.main = some .setDataMode → Engaged j.fw.app
  | _ => True

instance (j : Joint) : Decidable (ExitAwaited j) :=
  decidable_of_iff (j.client.exitPending ∧ (dataModeLine false ++ newline).length ≤ j.fw.app.ctrlTxRing.spaceGet ∧
      (j.client.reader = .control → j.stream ≠ []))
    ⟨fun h => ⟨h.1, h.2.1, h.2.2⟩, fun h => ⟨h.1, h.2, h.3⟩⟩

instance (j : Joint) (e : JointEvent) : Decidable (Followed j e) :=
  match e with
  | .firmware (.disconnected _) => inferInstanceAs (Decidable (_ → _))
  | .firmware (.escapeGuardWork _) => inferInstanceAs (Decidable (_ → _ → _))
  | .main _ => inferInstanceAs (Decidable (_ → _))
  | .reader _ | .call _ => isTrue trivial
  | .firmware (.uart _ _) | .firmware (.lineState _) | .firmware .bleWriteWork | .firmware .bleWriteRetryWork
  | .firmware .bleWriteCoalesceWork | .firmware .scanStopWork | .firmware (.deviceFound _ _ _ _)
  | .firmware (.connected _) | .firmware (.leParamUpdated _ _ _) | .firmware (.attMtu _)
  | .firmware (.serviceDiscover _) | .firmware (.characteristicDiscover _) | .firmware (.subscribe _)
  | .firmware (.notify _) | .firmware (.exchange _) | .firmware (.write _) => isTrue trivial

/-! ## The reader -/

/-- The exit event lies before the reader. A read of a single byte that was begun before the flag was set takes no
part of it. -/
def Ahead (r : Reader) (exitBuffer stream : List Byte) : Prop :=
  match r with
  | .control => EXIT_EVENT <:+: stream.drop 1
  | .got chunk => EXIT_EVENT <:+: exitBuffer ++ chunk ++ stream
  | _ => EXIT_EVENT <:+: exitBuffer ++ stream

/-- `_exit_pending` is cleared only together with `_data_mode`. -/
def Orderly (todo : List Effect) : Prop :=
  ∀ before after, todo = before ++ .clearExitPending :: after → .clearDataMode ∈ after

theorem Orderly.tail {effect : Effect} {todo : List Effect} (h : Orderly (effect :: todo)) : Orderly todo :=
  fun before after he => h (effect :: before) after (by rw [he]; rfl)

theorem orderly_of_not_mem {todo : List Effect} (h : .clearExitPending ∉ todo) : Orderly todo := by
  rintro before after rfl
  exact absurd (List.mem_append_right before List.mem_cons_self) h

/-- The client leaves data mode once the reader has come that far. -/
inductive Leaving (c : Client) (stream : List Byte) : Prop
  | seen (pending : c.exitPending) (ahead : Ahead c.reader c.exitBuffer stream)
  | due (todo : List Effect) (reader : c.reader = .busy todo) (clears : .clearDataMode ∈ todo)

structure ReaderKept (c : Client) : Prop where
  orderly : ∀ {todo}, c.reader = .busy todo → Orderly todo
  short : c.exitBuffer.length < EXIT_EVENT.length

theorem act_dataMode {c : Client} {effect : Effect} (h : (c.act effect).dataMode) : effect ≠ .clearDataMode := by
  rw [(act_flags c effect).1, Bool.and_eq_true, decide_eq_true_eq] at h
  exact h.2

theorem act_exitPending {c : Client} {effect : Effect} (h : c.exitPending) (he : effect ≠ .clearExitPending) :
    (c.act effect).exitPending := by
  rw [(act_flags c effect).2, h, decide_eq_true he, Bool.and_self]

theorem orderly_exit (chunks : List (List Byte)) (rest : List Byte) :
    Orderly (chunks.map .data ++ exitEffects rest) := by
  induction chunks with
  | nil =>
      rintro (_ | ⟨effect, before⟩) after he
      · obtain ⟨-, rfl⟩ := List.cons.inj he
        exact List.mem_cons_self
      · obtain ⟨-, he⟩ := List.cons.inj he
        have hmem : Effect.clearExitPending ∈ before ++ .clearExitPending :: after :=
          List.mem_append_right before List.mem_cons_self
        rw [show before ++ .clearExitPending :: after = _ from he.symm] at hmem
        simp at hmem
  | cons chunk chunks ih =>
      rintro (_ | ⟨effect, before⟩) after he
      · cases (List.cons.inj he).1
      · exact ih before after (List.cons.inj he).2

theorem handleExitPendingChunk_kept (exitBuffer chunk : List Byte) :
    Orderly (handleExitPendingChunk exitBuffer chunk).1 ∧
      (handleExitPendingChunk exitBuffer chunk).2.length < EXIT_EVENT.length := by
  have hreturns := returns_handleExitPendingChunk exitBuffer chunk
  by_cases hi : EXIT_EVENT <:+: exitBuffer ++ chunk
  · obtain ⟨hbuffer, pieces, rest, heffects, -⟩ := hreturns.some hi
    refine ⟨?_, ?_⟩
    · rw [heffects]
      exact orderly_exit pieces rest
    · rw [hbuffer]
      decide
  · obtain ⟨hbuffer, pieces, heffects, -⟩ := hreturns.none hi
    refine ⟨orderly_of_not_mem ?_, ?_⟩
    · rw [heffects]
      simp
    · rw [hbuffer, length_heldBack]
      exact pendingExitPrefixLen_lt _

/-- Either the event is found, or it is still ahead. -/
theorem handleExitPendingChunk_ahead {exitBuffer chunk stream : List Byte}
    (h : EXIT_EVENT <:+: exitBuffer ++ chunk ++ stream) :
    .clearDataMode ∈ (handleExitPendingChunk exitBuffer chunk).1 ∨
      EXIT_EVENT <:+: (handleExitPendingChunk exitBuffer chunk).2 ++ stream := by
  have hreturns := returns_handleExitPendingChunk exitBuffer chunk
  by_cases hi : EXIT_EVENT <:+: exitBuffer ++ chunk
  · obtain ⟨-, pieces, rest, heffects, -⟩ := hreturns.some hi
    left
    rw [heffects]
    simp [exitEffects]
  · obtain ⟨hbuffer, -⟩ := hreturns.none hi
    right
    rw [hbuffer]
    exact (held_heldBack _).straddle hi h

theorem ReaderKept.step (h : ReaderKept c) (n : Nat) : ReaderKept (c.readerStep n) := by
  have hcontrols : ∀ bytes : List Byte, Orderly (bytes.map .control) :=
    fun bytes => orderly_of_not_mem (by simp)
  cases hr : c.reader with
  | top =>
      simp only [readerStep, hr]
      refine ⟨fun he => ?_, h.short⟩
      dsimp only at he
      split at he
      · cases he
      · cases he
  | control =>
      simp only [readerStep, hr]
      refine ⟨fun he => ?_, h.short⟩
      dsimp only at he
      split at he
      · cases he
      · cases he
        exact hcontrols _
  | data =>
      simp only [readerStep, hr]
      refine ⟨fun he => ?_, h.short⟩
      dsimp only at he
      split at he
      · cases he
      · cases he
  | got chunk =>
      simp only [readerStep, hr]
      split
      · obtain ⟨horderly, hshort⟩ := handleExitPendingChunk_kept c.exitBuffer chunk
        refine ⟨fun he => ?_, hshort⟩
        cases he
        exact horderly
      · refine ⟨fun he => ?_, h.short⟩
        cases he
        exact orderly_of_not_mem (by simp)
  | busy todo =>
      cases todo with
      | nil =>
          simp only [readerStep, hr]
          exact ⟨(fun he => by cases he), h.short⟩
      | cons effect todo =>
          simp only [readerStep, hr]
          refine ⟨fun he => ?_, ?_⟩
          · cases he
            exact (h.orderly hr).tail
          · exact (act_same c effect).1 ▸ h.short

/-- A step of the reader takes the first bytes of the stream, if any. -/
theorem Leaving.step {waiting : List Byte} (hk : ReaderKept c) (h : Leaving c (c.input ++ waiting)) (n : Nat)
    (hd : (c.readerStep n).dataMode) : Leaving (c.readerStep n) ((c.readerStep n).input ++ waiting) := by
  cases h with
  | seen hpending hahead =>
      cases hr : c.reader with
      | top =>
          simp only [readerStep, hr] at hd ⊢
          rw [hr] at hahead
          refine .seen hpending ?_
          dsimp only
          rw [if_pos hd]
          exact hahead
      | control =>
          simp only [readerStep, hr] at hd ⊢
          rw [hr] at hahead
          refine .seen hpending ?_
          by_cases hnone : c.input.take (min n 1) = []
          · have hrest : c.input.drop (min n 1) = c.input := by
              have htake := List.take_append_drop (min n 1) c.input
              rw [hnone] at htake
              exact htake
            simp only [if_pos hnone, hrest]
            exact (hahead.trans (List.drop_suffix 1 _).isInfix).trans (List.suffix_append c.exitBuffer _).isInfix
          · have hone : min n 1 = 1 := by
              rcases Nat.eq_zero_or_pos n with rfl | hn
              · simp at hnone
              · omega
            have hlen : 1 ≤ c.input.length :=
              List.length_pos_iff.mpr fun he => hnone (by rw [he, List.take_nil])
            have hdrop : (c.input ++ waiting).drop 1 = c.input.drop 1 ++ waiting := List.drop_append_of_le_length hlen
            rw [Ahead, hdrop] at hahead
            rw [hone] at hnone
            simp only [hone, if_neg hnone]
            exact hahead.trans (List.suffix_append c.exitBuffer _).isInfix
      | data =>
          simp only [readerStep, hr] at hd ⊢
          rw [hr] at hahead
          refine .seen hpending ?_
          have hsplit : c.input.take (min n 256) ++ c.input.drop (min n 256) = c.input := List.take_append_drop _ _
          by_cases hnone : c.input.take (min n 256) = []
          · rw [hnone, List.nil_append] at hsplit
            simp only [if_pos hnone, hsplit]
            exact hahead
          · simp only [if_neg hnone, Ahead]
            rw [← List.append_assoc, List.append_assoc c.exitBuffer, hsplit, List.append_assoc]
            exact hahead
      | got chunk =>
          simp only [readerStep, hr, if_pos hpending]
          rw [hr] at hahead
          rcases handleExitPendingChunk_ahead hahead with hfound | hstill
          · exact .due _ rfl hfound
          · exact .seen hpending hstill
      | busy todo =>
          rw [hr] at hahead
          cases todo with
          | nil =>
              simp only [readerStep, hr]
              exact .seen hpending hahead
          | cons effect todo =>
              obtain ⟨hbuffer, hinput⟩ := act_same c effect
              simp only [readerStep, hr]
              by_cases he : effect = .clearExitPending
              · subst he
                exact .due todo rfl (hk.orderly hr [] todo rfl)
              · refine .seen (act_exitPending hpending he) ?_
                simp only [Ahead, hbuffer, hinput]
                exact hahead
  | due todo hr hclears =>
      cases todo with
      | nil => cases hclears
      | cons effect todo =>
          simp only [readerStep, hr] at hd ⊢
          have hne := act_dataMode hd
          exact .due todo rfl ((List.mem_cons.mp hclears).resolve_left fun he => hne he.symm)

/-! ## The firmware -/

theorem Ahead.extend {r : Reader} {exitBuffer stream : List Byte} (h : Ahead r exitBuffer stream) (more : List Byte) :
    Ahead r exitBuffer (stream ++ more) := by
  have hmono : ∀ before : List Byte, EXIT_EVENT <:+: before ++ stream → EXIT_EVENT <:+: before ++ (stream ++ more) := by
    intro before hi
    rw [← List.append_assoc]
    exact hi.trans (List.prefix_append _ _).isInfix
  cases r with
  | control =>
      obtain ⟨before, after, he⟩ := h
      have hprefix : stream.drop 1 <+: (stream ++ more).drop 1 := (List.prefix_append stream more).drop 1
      exact List.IsInfix.trans ⟨before, after, he⟩ hprefix.isInfix
  | got chunk => exact hmono (exitBuffer ++ chunk) h
  | top => exact hmono exitBuffer h
  | data => exact hmono exitBuffer h
  | busy todo => exact hmono exitBuffer h

theorem Leaving.extend {stream : List Byte} (h : Leaving c stream) (more : List Byte) : Leaving c (stream ++ more) := by
  cases h with
  | seen hpending hahead => exact .seen hpending (hahead.extend more)
  | due todo hr hclears => exact .due todo hr hclears

/-- What the firmware sends comes after what is under way. -/
theorem exchange_stream {f g : Firmware} (hl : f.app.log <:+ g.app.log) (hw : wire f.app <+: wire g.app) (c : Client) :
    (c.exchange f g).input ++ g.app.ctrlTxRing.data =
      c.input ++ f.app.ctrlTxRing.data ++ (wire g.app).drop (wire f.app).length := by
  obtain ⟨filled, hfilled⟩ := collect_of_suffix hl Obs.filled
  obtain ⟨more, hmore⟩ := hw
  have hrest : filled ++ g.app.ctrlTxRing.data = f.app.ctrlTxRing.data ++ more := by
    simp only [wire, ← hfilled, List.append_assoc] at hmore
    exact (List.append_cancel_left hmore).symm
  simp only [exchange]
  rw [← hmore, ← hfilled, List.drop_left, List.drop_left, List.append_assoc, hrest, List.append_assoc]

theorem exitEvent_eq : EXIT_EVENT = dataModeLine false ++ newline := by decide

/-- The exit that is awaited puts the event before the reader. -/
theorem ExitAwaited.ahead (h : ExitAwaited j) :
    Ahead j.client.reader j.client.exitBuffer (j.stream ++ EXIT_EVENT) := by
  have hlast : ∀ before : List Byte, EXIT_EVENT <:+: before ++ (j.stream ++ EXIT_EVENT) := by
    intro before
    rw [← List.append_assoc]
    exact (List.suffix_append _ _).isInfix
  cases hr : j.client.reader with
  | control =>
      have hlen : 1 ≤ j.stream.length := List.length_pos_iff.mpr (h.reader hr)
      rw [Ahead, List.drop_append_of_le_length hlen]
      exact (List.suffix_append _ _).isInfix
  | got chunk => exact hlast _
  | top => exact hlast _
  | data => exact hlast _
  | busy todo => exact hlast _

/-! ## The main thread -/

/-- What an operation may do while the flag stays set. -/
theorem perform_mode {w : Choice} {c' : Client} {o : Op} {a : Answer o} (h : perform w c o = some (a, c'))
    (hd : c'.dataMode) (hset : o ≠ .setDataMode) :
    c.dataMode ∧ (o ≠ .resetInputBuffer → c'.input = c.input) ∧
      (o ≠ .clearExitPending → c.exitPending → c'.exitPending) := by
  have hperformed := performed h
  have hclear : o ≠ .clearDataMode := by
    rintro rfl
    cases h
    cases hd
  refine ⟨hperformed.dataMode hset hclear ▸ hd, hperformed.input, fun hne hpending => ?_⟩
  by_cases hexit : o = .setExitPending
  · subst hexit
    cases h
    rfl
  · rw [hperformed.exitPending hexit hne]
    exact hpending

theorem Leaving.of_same {c' : Client} {stream : List Byte} (h : Leaving c stream)
    (hr : c'.reader = c.reader ∧ c'.exitBuffer = c.exitBuffer) (hp : c.exitPending → c'.exitPending) :
    Leaving c' stream := by
  cases h with
  | seen hpending hahead => exact .seen (hp hpending) (by rw [hr.1, hr.2]; exact hahead)
  | due todo hreader hclears => exact .due todo (hr.1.trans hreader) hclears

/-! ## Runs -/

theorem exitBuffer_short : ([] : List Byte).length < EXIT_EVENT.length := by decide

structure Agreeing (env : Env) (j : Joint) : Prop where
  reachable : Reachable env j.fw
  reader : ReaderKept j.client
  main : ∃ set, ModeKnown j.client set ∧ j.main.wp modeSpec (fun _ _ => True) set
  mode : j.client.dataMode → Engaged j.fw.app ∨ Leaving j.client j.stream

theorem Agreeing.start {f : Firmware} (h : Reachable env f) : Agreeing env (Joint.start f) where
  reachable := h
  reader := ⟨(fun he => by cases he), exitBuffer_short⟩
  main := ⟨true, fun _ => rfl, trivial⟩
  mode hd := by cases hd

theorem Agreeing.firmware (h : Agreeing env j) {e : Event} (hc : Followed j (.firmware e)) :
    Agreeing env (j.step env (.firmware e)) := by
  rw [Joint.step]
  split
  · have hwire := (step_onward h.reachable h.reachable.announcing e).1
    have hstream := exchange_stream (step_log_suffix h.reachable e) hwire j.client
    refine ⟨h.reachable.next env e, ⟨h.reader.orderly, h.reader.short⟩, h.main, fun hd => ?_⟩
    rw [Joint.stream, hstream]
    rcases h.mode hd with hengaged | hleaving
    · by_cases hlost : e.report = some .lost
      · cases e with
        | disconnected reason => exact absurd hengaged (hc hd)
        | notify data => cases data <;> simp [Event.report] at hlost
        | characteristicDiscover attr => cases attr <;> simp [Event.report] at hlost
        | _ => simp [Event.report] at hlost
      · by_cases htimer : e.report = some .guardTimer
        · cases e with
          | escapeGuardWork now =>
              by_cases hdue : EscapeDue j.fw.app now
              · have hawaited := hc hd hdue
                have hexit := wire_of_escapeDue env hdue hawaited.room
                have hmore : (wire (step env j.fw (.escapeGuardWork now)).app).drop (wire j.fw.app).length = EXIT_EVENT := by
                  change (wire (stepApp env j.fw.app (.escapeGuardWork now))).drop _ = _
                  rw [hexit, List.drop_left, exitEvent_eq]
                rw [hmore]
                exact .inr (.seen hawaited.pending hawaited.ahead)
              · exact .inl ((stepApp_escapeGuardWork env hdue).engaged.mpr hengaged)
          | notify data => cases data <;> simp [Event.report] at htimer
          | characteristicDiscover attr => cases attr <;> simp [Event.report] at htimer
          | _ => simp [Event.report] at htimer
        · exact .inl (step_engaged h.reachable hengaged hlost htimer)
    · exact .inr ((hleaving.extend _).of_same ⟨rfl, rfl⟩ id)
  · exact h

theorem Agreeing.readerStep (h : Agreeing env j) (n : Nat) : Agreeing env (j.step env (.reader n)) := by
  obtain ⟨set, hknown, hmain⟩ := h.main
  have hback := (readerStep_flags j.client n).1
  refine ⟨h.reachable, h.reader.step n, ⟨set, (fun hd => hknown (hback hd)), hmain⟩, fun hd => ?_⟩
  exact (h.mode (hback hd)).imp_right fun hleaving => hleaving.step h.reader n hd

theorem Agreeing.mainStep (h : Agreeing env j) {w : Choice} (hc : Followed j (.main w)) :
    Agreeing env (j.step env (.main w)) := by
  obtain ⟨set, hknown, hmain⟩ := h.main
  have hturn := Prog.wp_turn modeSpec_monotone (modeSpec_sound w) hknown hmain
  rcases Prog.turn_cases (perform w) j.client j.main with hsame | ⟨o, next, a, c', hop, hperform, hsame⟩
  · rw [Joint.step]
    refine ⟨h.reachable, ?_, hturn, ?_⟩
    · simp only [hsame]
      exact h.reader
    · rw [Joint.stream]
      simp only [hsame]
      exact h.mode
  · have hreader := (performed hperform).reader
    have hbuffer := (performed hperform).exitBuffer
    rw [Joint.step]
    refine ⟨h.reachable, ?_, hturn, ?_⟩
    · simp only [hsame]
      exact ⟨fun he => h.reader.orderly (hreader ▸ he), hbuffer ▸ h.reader.short⟩
    · rw [Joint.stream]
      simp only [hsame]
      intro hd
      by_cases hset : o = .setDataMode
      · subst hset
        exact .inl (hc (by rw [hop]; rfl))
      · obtain ⟨hd', hinput, hpending⟩ := perform_mode hperform hd hset
        rw [hop] at hmain
        have hin : set = true := hknown hd'
        have hreset : o ≠ .resetInputBuffer := by
          rintro rfl
          have hclear : set = false := hmain.1
          rw [hin] at hclear
          cases hclear
        have hexit : o ≠ .clearExitPending := by
          rintro rfl
          have hclear : set = false := hmain.1
          rw [hin] at hclear
          cases hclear
        rw [hinput hreset]
        exact (h.mode hd').imp_right fun hleaving => hleaving.of_same ⟨hreader, hbuffer⟩ (hpending hexit)

theorem Agreeing.step (h : Agreeing env j) {e : JointEvent} (hc : Followed j e) : Agreeing env (j.step env e) := by
  cases e with
  | firmware e => exact h.firmware hc
  | reader n => exact h.readerStep n
  | main w => exact h.mainStep hc
  | call call =>
      rw [Joint.step]
      split
      · obtain ⟨set, hknown, -⟩ := h.main
        exact ⟨h.reachable, h.reader, ⟨set, hknown, wp_program call set⟩, h.mode⟩
      · exact h

theorem Agreeing.modesAgree (h : Agreeing env j) : ModesAgree j := by
  intro hquiet hd
  have hstream : j.stream = [] := by rw [Joint.stream, hquiet.input, hquiet.ctrl, List.append_nil]
  rcases h.mode hd with (hmode | hpending) | hleaving
  · exact hmode
  · exact absurd hquiet.ctrl (h.reachable.announcing hpending).2
  · rw [hstream] at hleaving
    have hidle := hquiet.reader
    have hlong : ¬EXIT_EVENT <:+: j.client.exitBuffer := fun hi => Nat.not_lt.mpr hi.length_le h.reader.short
    cases hleaving with
    | due todo hr hclears =>
        rw [hr] at hidle
        exact hidle.elim
    | seen hpending hahead =>
        cases hr : j.client.reader with
        | control =>
            rw [hr] at hahead
            have hnil : EXIT_EVENT = [] := List.infix_nil.mp hahead
            cases hnil
        | top | data =>
            rw [hr] at hahead
            have hi : EXIT_EVENT <:+: j.client.exitBuffer ++ [] := hahead
            rw [List.append_nil] at hi
            exact absurd hi hlong
        | got chunk | busy todo =>
            rw [hr] at hidle
            exact hidle.elim

/-! ## Result -/

theorem modes_agree {f : Firmware} (h : Reachable env f) {es : List JointEvent}
    (hc : Runs.Along Followed (Joint.step env) (Joint.start f) es) :
    ModesAgree (Runs.run (Joint.step env) (Joint.start f) es) :=
  (Runs.run_invariant_along (P := Agreeing env) (fun _ _ hc h => h.step hc) (Agreeing.start h) hc).modesAgree

/-! ## A lost connection -/

def mainSteps (n : Nat) : List JointEvent := List.replicate n (.main ⟨0, false, 0⟩)

/-- Enough steps of the reader for `n` bytes that come one by one. -/
def readerSteps (n : Nat) : List JointEvent := List.replicate (4 * n) (.reader 256)

/-- `connect`, then `enter_data_mode`, against a stack that accepts every call. -/
def joinedRun : List JointEvent :=
  .call (.connect (str "0x010203040506") 0 10000) :: mainSteps 1 ++ becomeReady.map .firmware ++
    [.firmware (transmit 1000)] ++ readerSteps 90 ++ mainSteps 30 ++
    .call (.enterDataMode 5000) :: mainSteps 1 ++ (Main.enterDataMode 3000).map .firmware ++ readerSteps 22 ++ mainSteps 20

/-- `exit_data_mode`: no data waits, and the guard time of the firmware passes after the escape sequence. -/
def exitSteps : List JointEvent :=
  .call (.exitDataMode 2000 1200) :: List.replicate 4 (.main ⟨0, true, 0⟩) ++ mainSteps 1 ++
    [.firmware (hostSends "+++" 5000), .firmware (.escapeGuardWork 6200), .firmware (transmit 6300)] ++
    readerSteps 6 ++ mainSteps 5

/-- The peer disconnects and the client reads all there is. -/
def peerLeaves : List JointEvent := [.firmware (.disconnected 19), .firmware (transmit 4000)] ++ readerSteps 3

def runJoint (es : List JointEvent) : Joint :=
  Runs.run (Joint.step (stackRefusing [])) (Joint.start (boot sampleConfig 0 true)) es

set_option maxRecDepth 20000 in
theorem modes_agree_exit : ModesAgree (runJoint (joinedRun ++ exitSteps)) :=
  modes_agree ⟨sampleConfig, 0, true, [], rfl⟩ (by decide)

set_option maxRecDepth 20000 in
theorem modes_disagree_disconnected : ¬ModesAgree (runJoint (joinedRun ++ peerLeaves)) := by
  have hrun : (runJoint (joinedRun ++ peerLeaves)).client.input = [] ∧
      (runJoint (joinedRun ++ peerLeaves)).client.output = [] ∧
      (runJoint (joinedRun ++ peerLeaves)).fw.app.ctrlTxRing.data = [] ∧
      (runJoint (joinedRun ++ peerLeaves)).client.reader = .data ∧
      (runJoint (joinedRun ++ peerLeaves)).client.dataMode = true ∧
      (runJoint (joinedRun ++ peerLeaves)).fw.app.appState = .idle := by decide
  generalize runJoint (joinedRun ++ peerLeaves) = j at hrun
  obtain ⟨hinput, houtput, hctrl, hreader, hd, hidle⟩ := hrun
  intro h
  have hmode := h ⟨hinput, houtput, hctrl, by rw [hreader]; trivial⟩ hd
  rw [hidle] at hmode
  cases hmode

end BleAtHost.Client
