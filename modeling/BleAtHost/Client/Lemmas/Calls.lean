import BleAtHost.Client.System

/-!
# What the main thread may do in data mode

While `_data_mode` may be set the main thread discards no input and does not clear `_exit_pending`: the methods
that do so have seen the flag clear before, and nobody but the main thread sets it.
-/

namespace BleAtHost.Client

open Prog

def Program.next {α : Type} : Program α → Option Op
  | .op o _ => some o
  | _ => none

/-- What an operation leaves alone. -/
structure Performed (o : Op) (c c' : Client) : Prop where
  reader : c'.reader = c.reader
  exitBuffer : c'.exitBuffer = c.exitBuffer
  input : o ≠ .resetInputBuffer → c'.input = c.input
  dataQueue : (∀ timeout, o ≠ .getData timeout) → c'.dataQueue = c.dataQueue
  dataMode : o ≠ .setDataMode → o ≠ .clearDataMode → c'.dataMode = c.dataMode
  exitPending : o ≠ .setExitPending → o ≠ .clearExitPending → c'.exitPending = c.exitPending

theorem performed {w : Choice} {c c' : Client} {o : Op} {a : Answer o} (h : perform w c o = some (a, c')) :
    Performed o c c' := by
  cases o with
  | getLine | getLineNowait =>
      obtain ⟨_, _, hc⟩ := Option.map_eq_some_iff.mp h
      cases hc
      exact ⟨rfl, rfl, fun _ => rfl, fun _ => rfl, fun _ _ => rfl, fun _ _ => rfl⟩
  | getData timeout =>
      obtain ⟨_, _, hc⟩ := Option.map_eq_some_iff.mp h
      cases hc
      exact ⟨rfl, rfl, fun _ => rfl, fun hne => absurd rfl (hne timeout), fun _ _ => rfl, fun _ _ => rfl⟩
  | resetInputBuffer =>
      cases h
      exact ⟨rfl, rfl, fun hne => absurd rfl hne, fun _ => rfl, fun _ _ => rfl, fun _ _ => rfl⟩
  | setDataMode =>
      cases h
      exact ⟨rfl, rfl, fun _ => rfl, fun _ => rfl, fun hne _ => absurd rfl hne, fun _ _ => rfl⟩
  | clearDataMode =>
      cases h
      exact ⟨rfl, rfl, fun _ => rfl, fun _ => rfl, fun _ hne => absurd rfl hne, fun _ _ => rfl⟩
  | setExitPending =>
      cases h
      exact ⟨rfl, rfl, fun _ => rfl, fun _ => rfl, fun _ _ => rfl, fun hne _ => absurd rfl hne⟩
  | clearExitPending =>
      cases h
      exact ⟨rfl, rfl, fun _ => rfl, fun _ => rfl, fun _ _ => rfl, fun _ hne => absurd rfl hne⟩
  | _ =>
      cases h
      exact ⟨rfl, rfl, fun _ => rfl, fun _ => rfl, fun _ _ => rfl, fun _ _ => rfl⟩

/-- `set` tells whether `_data_mode` may be set. -/
def modeSpec (set : Bool) : (o : Op) → (Answer o → Bool → Prop) → Prop
  | .dataModeIsSet, R => (set = true → R true true) ∧ R false false
  | .setDataMode, R => R () true
  | .clearDataMode, R => R () false
  | .resetInputBuffer, R => set = false ∧ R () false
  | .clearExitPending, R => set = false ∧ R () false
  | .write _, R | .sleep _, R | .clearLineBuffer, R | .setExitPending, R => R () set
  | .monotonic, R => ∀ now, R now set
  | .getLine _, R | .getLineNowait, R => ∀ line, R line set
  | .getData _, R => ∀ chunk, R chunk set

theorem modeSpec_monotone : Prog.Monotone modeSpec := by
  intro set o R R' hr h
  cases o with
  | dataModeIsSet => exact ⟨fun hs => hr _ _ (h.1 hs), hr _ _ h.2⟩
  | resetInputBuffer => exact ⟨h.1, hr _ _ h.2⟩
  | clearExitPending => exact ⟨h.1, hr _ _ h.2⟩
  | monotonic => exact fun now => hr _ _ (h now)
  | getLine => exact fun line => hr _ _ (h line)
  | getLineNowait => exact fun line => hr _ _ (h line)
  | getData => exact fun chunk => hr _ _ (h chunk)
  | _ => exact hr _ _ h

def ModeKnown (c : Client) (set : Bool) : Prop := c.dataMode → set

theorem modeSpec_sound (w : Choice) : Sound modeSpec (perform w) ModeKnown := by
  intro c c' set o a R hk h he
  cases o with
  | dataModeIsSet =>
      obtain ⟨rfl, rfl⟩ := Prod.mk.inj (Option.some.inj he)
      cases hd : c.dataMode with
      | true =>
          have hset : set = true := hk hd
          exact ⟨true, fun _ => rfl, h.1 hset⟩
      | false =>
          refine ⟨false, fun hset => ?_, h.2⟩
          rw [hd] at hset
          cases hset
  | setDataMode =>
      obtain ⟨rfl, rfl⟩ := Prod.mk.inj (Option.some.inj he)
      exact ⟨true, fun _ => rfl, h⟩
  | clearDataMode =>
      obtain ⟨rfl, rfl⟩ := Prod.mk.inj (Option.some.inj he)
      exact ⟨false, fun hd => hd, h⟩
  | resetInputBuffer =>
      obtain ⟨rfl, rfl⟩ := Prod.mk.inj (Option.some.inj he)
      obtain ⟨rfl, hr⟩ := h
      exact ⟨false, hk, hr⟩
  | clearExitPending =>
      obtain ⟨rfl, rfl⟩ := Prod.mk.inj (Option.some.inj he)
      obtain ⟨rfl, hr⟩ := h
      exact ⟨false, hk, hr⟩
  | monotonic =>
      obtain ⟨rfl, rfl⟩ := Prod.mk.inj (Option.some.inj he)
      exact ⟨set, hk, h _⟩
  | getLine timeout =>
      obtain ⟨_, _, hc⟩ := Option.map_eq_some_iff.mp he
      obtain ⟨rfl, rfl⟩ := Prod.mk.inj hc
      exact ⟨set, hk, h _⟩
  | getLineNowait =>
      obtain ⟨_, _, hc⟩ := Option.map_eq_some_iff.mp he
      obtain ⟨rfl, rfl⟩ := Prod.mk.inj hc
      exact ⟨set, hk, h _⟩
  | getData timeout =>
      obtain ⟨_, _, hc⟩ := Option.map_eq_some_iff.mp he
      obtain ⟨rfl, rfl⟩ := Prod.mk.inj hc
      exact ⟨set, hk, h _⟩
  | _ =>
      obtain ⟨rfl, rfl⟩ := Prod.mk.inj (Option.some.inj he)
      exact ⟨set, hk, h⟩

/-! ## Methods that leave the mode alone -/

/-- Operations that neither look at the mode nor touch it. -/
def Op.Neutral : Op → Prop
  | .write _ | .monotonic | .sleep _ | .getLine _ | .getLineNowait | .getData _ | .clearLineBuffer | .setExitPending =>
      True
  | _ => False

theorem modeSpec_neutral ⦃set : Bool⦄ ⦃o : Op⦄ ⦃R : Answer o → Bool → Prop⦄ (h : o.Neutral) (hr : ∀ a, R a set) :
    modeSpec set o R := by
  cases o with
  | dataModeIsSet | setDataMode | clearDataMode | resetInputBuffer | clearExitPending => exact h.elim
  | write | sleep | clearLineBuffer | setExitPending => exact hr ()
  | _ => exact fun a => hr a

section
variable {allowed : Op → Prop}

theorem uses_writeLine_of (hw : ∀ data, allowed (.write data)) (command : Str) : (writeLine command).Uses allowed := by
  unfold writeLine
  split
  · exact uses_ask (hw _)
  · exact uses_raise _

theorem uses_readUntil_of (hm : allowed .monotonic) (hg : ∀ timeout, allowed (.getLine timeout)) (predicate : Str → Bool)
    (timeout : Int) : (readUntil predicate timeout).Uses allowed := by
  refine uses_bind (uses_ask hm) fun now => uses_forever fun _ => ?_
  refine uses_bind (uses_ask hm) fun now' => ?_
  dsimp only
  split
  · exact uses_raise _
  · refine uses_bind (uses_ask (hg _)) fun line => ?_
    split
    · exact uses_raise _
    · split
      · exact uses_pure _
      · exact uses_pure _

theorem uses_waitOk_of (hm : allowed .monotonic) (hg : ∀ timeout, allowed (.getLine timeout)) (timeout : Int) :
    (waitOk timeout).Uses allowed := by
  refine uses_bind (uses_readUntil_of hm hg _ _) fun line => ?_
  split
  · exact uses_raise _
  · exact uses_pure _

end

theorem uses_writeLine (command : Str) : (writeLine command).Uses Op.Neutral := uses_writeLine_of (fun _ => trivial) _

theorem uses_readUntil (predicate : Str → Bool) (timeout : Int) : (readUntil predicate timeout).Uses Op.Neutral :=
  uses_readUntil_of trivial (fun _ => trivial) _ _

theorem uses_waitOk (timeout : Int) : (waitOk timeout).Uses Op.Neutral := uses_waitOk_of trivial (fun _ => trivial) _

theorem uses_drainLineQueue : drainLineQueue.Uses Op.Neutral := by
  refine uses_forever fun _ => uses_bind (uses_ask trivial) fun line => ?_
  split
  · exact uses_pure _
  · exact uses_pure _

theorem uses_scan (durationS : Int) (pre : Str) (timeout : Int) : (scan durationS pre timeout).Uses Op.Neutral := by
  refine uses_bind (uses_writeLine _) fun _ => uses_bind (uses_waitOk _) fun _ => uses_forever fun found => ?_
  refine uses_bind (uses_readUntil _ _) fun line => ?_
  split
  · exact uses_pure _
  · split
    · exact uses_pure _
    · split
      · exact uses_pure _
      · exact uses_raise _

theorem uses_connect (mac : Str) (addrType timeout : Int) : (connect mac addrType timeout).Uses Op.Neutral :=
  uses_bind (uses_writeLine _) fun _ => uses_bind (uses_waitOk _) fun _ =>
    uses_bind (uses_readUntil _ _) fun _ => uses_bind (uses_readUntil _ _) fun _ => uses_pure _

theorem uses_disconnect (timeout : Int) : (disconnect timeout).Uses Op.Neutral :=
  uses_bind (uses_writeLine _) fun _ => uses_waitOk _

theorem uses_send (payload : List Byte) (timeout : Int) : (send payload timeout).Uses Op.Neutral := by
  refine uses_bind (uses_writeLine _) fun _ => uses_bind (uses_readUntil _ _) fun prompt => ?_
  split
  · exact uses_raise _
  · exact uses_bind (uses_ask trivial) fun _ => uses_waitOk _

theorem uses_getStatus (timeout : Int) : (getStatus timeout).Uses Op.Neutral := by
  refine uses_bind (uses_writeLine _) fun _ => uses_forever fun lines => ?_
  refine uses_bind (uses_readUntil _ _) fun line => ?_
  split
  · exact uses_pure _
  · exact uses_pure _

theorem uses_setProfile (serviceUuid notifyUuid writeUuid : Str) (timeout : Int) :
    (setProfile serviceUuid notifyUuid writeUuid timeout).Uses Op.Neutral :=
  uses_bind (uses_writeLine _) fun _ => uses_waitOk _

theorem uses_readValue (timeout : Int) : (readValue timeout).Uses Op.Neutral := by
  refine uses_bind (uses_readUntil _ _) fun line => ?_
  split
  · exact uses_raise _
  · exact uses_pure _

theorem uses_drainStream (timeout : Int) : (drainStream timeout).Uses Op.Neutral := by
  refine uses_forever fun chunks => uses_bind (uses_ask trivial) fun chunk => ?_
  split
  · exact uses_pure _
  · exact uses_pure _

theorem uses_readStream (timeout : Int) : (readStream timeout).Uses Op.Neutral := by
  refine uses_bind (uses_ask trivial) fun chunk => ?_
  split
  · exact uses_pure _
  · exact uses_raise _

theorem uses_syncAttempts (deadline : Int) (attempts : Nat) : (syncAttempts deadline attempts).Uses Op.Neutral := by
  induction attempts with
  | zero => exact uses_pure _
  | succ attempts ih =>
      refine uses_bind (uses_writeLine _) fun _ => uses_bind (uses_ask trivial) fun now => ?_
      refine uses_bind (uses_attempt (uses_readUntil _ _)) fun r => ?_
      split
      · exact uses_pure _
      · refine uses_bind (uses_ask trivial) fun now' => ?_
        split
        · exact uses_pure _
        · exact ih
      · exact uses_raise _

theorem uses_ignore {α : Type} {p : Program α} (h : p.Uses Op.Neutral) : (ignore p).Uses Op.Neutral :=
  uses_bind h fun _ => uses_pure _

/-! ## Methods that look at the mode or change it -/

/-- The mode stays as it is known. -/
theorem wp_neutral {α : Type} {p : Program α} (h : p.Uses Op.Neutral) (set : Bool) :
    p.wp modeSpec (fun _ set' => set' = set) set := wp_of_uses modeSpec_monotone modeSpec_neutral h set

/-- A program that leaves the mode alone, and what follows it. -/
theorem wp_neutral_bind {α β : Type} {p : Program α} (h : p.Uses Op.Neutral) {f : α → Program β}
    {Q : Except PyError β → Bool → Prop} {set : Bool} (hf : ∀ a, (f a).wp modeSpec Q set)
    (he : ∀ e, Q (.error e) set) : (p >>= f).wp modeSpec Q set := by
  refine wp_bind modeSpec_monotone (wp_mono modeSpec_monotone (wp_neutral h set) ?_)
  rintro (e | a) _ rfl
  · exact he e
  · exact hf a

/-- An operation and what follows it. -/
theorem wp_ask_bind {β τ : Type} {spec : τ → (o : Op) → (Answer o → τ → Prop) → Prop} {o : Op}
    {f : Answer o → Program β} {Q : Except PyError β → τ → Prop} {t : τ}
    (h : spec t o fun a t' => (f a).wp spec Q t') : (ask o >>= f).wp spec Q t := h

theorem wp_enterDataMode (timeout : Int) (set : Bool) : (enterDataMode timeout).wp modeSpec (fun _ _ => True) set := by
  refine wp_neutral_bind (uses_writeLine _) (fun _ => ?_) fun _ => trivial
  refine wp_neutral_bind (uses_waitOk _) (fun _ => ?_) fun _ => trivial
  refine wp_neutral_bind (uses_readUntil _ _) (fun _ => ?_) fun _ => trivial
  exact True.intro

/-- It fails at once, or the flag is clear. -/
theorem wp_syncControlMode (timeout : Int) (attempts : Nat) (set : Bool) :
    (syncControlMode timeout attempts).wp modeSpec
      (fun r set' => set' = false ∨ ∃ message, r = .error (.runtimeError message)) set := by
  refine wp_ask_bind ⟨fun _ => .inr ⟨_, rfl⟩, ?_⟩
  refine wp_ask_bind ⟨rfl, wp_ask_bind ?_⟩
  refine wp_neutral_bind uses_drainLineQueue (fun _ => wp_ask_bind fun now => ?_) fun _ => .inl rfl
  refine wp_neutral_bind (uses_syncAttempts _ _) (fun synced => ?_) fun _ => .inl rfl
  cases synced with
  | true => exact .inl rfl
  | false => exact .inl rfl

theorem wp_forceControlMode (timeout guardTime : Int) :
    (forceControlMode timeout guardTime).wp modeSpec (fun _ _ => True) false := by
  refine wp_ask_bind ⟨rfl, wp_ask_bind ?_⟩
  refine wp_neutral_bind uses_drainLineQueue (fun _ => ?_) fun _ => trivial
  refine wp_ask_bind ⟨rfl, wp_ask_bind (wp_ask_bind (wp_ask_bind ?_))⟩
  refine wp_neutral_bind (uses_attempt (uses_readUntil _ _)) (fun r => ?_) fun _ => trivial
  have hsync : (do
      ask .clearExitPending
      ask .clearDataMode
      syncControlMode (max timeout 3000) 3 : Program Unit).wp modeSpec (fun _ _ => True) false :=
    wp_ask_bind ⟨rfl, wp_ask_bind (wp_mono modeSpec_monotone (wp_syncControlMode _ _ _) fun _ _ _ => trivial)⟩
  split
  · exact hsync
  · exact hsync
  · exact True.intro

theorem wp_recoverControlMode (timeout guardTime : Int) (set : Bool) :
    (recoverControlMode timeout guardTime).wp modeSpec (fun _ _ => True) set := by
  refine wp_bind modeSpec_monotone (wp_attempt modeSpec_monotone
    (wp_mono modeSpec_monotone (wp_syncControlMode timeout 2 set) ?_))
  rintro (e | a) set' (rfl | ⟨message, he⟩)
  · cases e with
    | timeoutError => exact wp_forceControlMode timeout guardTime
    | _ => exact True.intro
  · cases he
    exact True.intro
  · exact True.intro
  · cases he

theorem wp_exitDataMode (timeout guardTime : Int) (set : Bool) :
    (exitDataMode timeout guardTime).wp modeSpec (fun _ _ => True) set := by
  refine wp_ask_bind ?_
  refine wp_neutral_bind (uses_drainStream _) (fun _ => wp_ask_bind (wp_ask_bind ?_)) fun _ => trivial
  refine wp_neutral_bind (uses_readUntil _ _) (fun line => ?_) fun _ => trivial
  split
  · exact True.intro
  · exact wp_mono modeSpec_monotone (wp_syncControlMode _ _ _) fun _ _ _ => trivial

theorem wp_writeStream (payload : List Byte) (set : Bool) :
    (writeStream payload).wp modeSpec (fun _ _ => True) set :=
  wp_ask_bind ⟨fun _ => True.intro, True.intro⟩

/-- Every method keeps to it. -/
theorem wp_program (call : Call) (set : Bool) : call.program.wp modeSpec (fun _ _ => True) set := by
  have hneutral : ∀ {p : Program Unit}, p.Uses Op.Neutral → p.wp modeSpec (fun _ _ => True) set :=
    fun h => wp_mono modeSpec_monotone (wp_neutral h set) fun _ _ _ => trivial
  cases call with
  | scan durationS pre timeout => exact hneutral (uses_ignore (uses_scan _ _ _))
  | connect mac addrType timeout => exact hneutral (uses_connect _ _ _)
  | disconnect timeout => exact hneutral (uses_disconnect _)
  | send payload timeout => exact hneutral (uses_send _ _)
  | getStatus timeout => exact hneutral (uses_ignore (uses_getStatus _))
  | setProfile service notify write timeout => exact hneutral (uses_setProfile _ _ _ _)
  | getProfile timeout =>
      exact hneutral (uses_ignore (uses_bind (uses_writeLine _) fun _ => uses_readValue _))
  | getStreamStat timeout =>
      exact hneutral (uses_ignore (uses_bind (uses_writeLine _) fun _ => uses_readValue _))
  | enterDataMode timeout => exact wp_enterDataMode timeout set
  | drainStream timeout => exact hneutral (uses_ignore (uses_drainStream _))
  | syncControlMode timeout attempts =>
      exact wp_mono modeSpec_monotone (wp_syncControlMode timeout attempts set) fun _ _ _ => trivial
  | recoverControlMode timeout guardTime => exact wp_recoverControlMode timeout guardTime set
  | exitDataMode timeout guardTime => exact wp_exitDataMode timeout guardTime set
  | writeStream payload => exact wp_writeStream payload set
  | readStream timeout => exact hneutral (uses_ignore (uses_readStream _))

end BleAtHost.Client
