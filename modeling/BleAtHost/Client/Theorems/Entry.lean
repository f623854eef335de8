import BleAtHost.Lib.Lines
import BleAtHost.Client.Lemmas.Calls
import BleAtHost.Client.Lemmas.Control
import BleAtHost.Client.Lemmas.Scan

/-!
# The client enters data mode

`enter_data_mode` sets the flag after it has taken `+IND=DATAMODE,1` from the queue, and the reader goes on reading all
the while. The data arrive as they are if the flag is set behind the line feed and no `read(1)` gets a byte of them.
-/

namespace BleAtHost.Client

open Prog

/-- A step of the reader, or a turn of `enter_data_mode`. -/
inductive EntryEvent where
  | reader (n : Nat)
  | main (w : Choice)
deriving DecidableEq, Repr

abbrev Entry := Client × Program Unit

def entryStep (s : Entry) : EntryEvent → Entry
  | .reader n => (s.1.readerStep n, s.2)
  | .main w => mainTurn s w

/-- The control part of the stream: lines, and then the one that announces data mode. -/
def controlPart (lines : List Text) : List Byte := Lines.join 13 10 (lines ++ [ascii "+IND=DATAMODE,1"])

/-- `enter_data_mode` is called in control mode, with no exit awaited (`_exit_pending` is clear), the reader at the top of its
loop and nothing passed on as data. Whatever else the client holds stays open. -/
def entryStart (c : Client) (control data : List Byte) (timeout : Int) : Entry :=
  ({ c with
      input := control ++ data
      dataQueue := []
      dataMode := false
      exitPending := false
      reader := .top },
    enterDataMode timeout)

/-! ## What should hold -/

def Effect.bytes : Effect → List Byte
  | .data chunk => chunk
  | _ => []

/-- Bytes that the reader holds and is going to emit as data. -/
def Reader.held : Reader → List Byte
  | .got chunk => chunk
  | .busy todo => (todo.map Effect.bytes).flatten
  | _ => []

/-- What was passed to `_emit_data`, with the chunk that the reader holds. -/
def given (c : Client) : List Byte := c.dataQueue.flatten ++ c.reader.held

/-- Either the reader is still in the control part and nothing was taken for data, or the data are what was given as
data and what is still to be read. -/
def DataExact (control data : List Byte) (c : Client) : Prop :=
  (∃ left, left <:+ control ∧ c.input = left ++ data ∧ given c = []) ∨ given c ++ c.input = data

/-- `_data_mode` is set when the reader has read the control part, or all but its last byte and is at `read(1)`. A
`read(1)` that sees data mode set returns that byte, if it is left, and none returns a byte of the data. -/
def Timely (data : List Byte) (s : Entry) : EntryEvent → Prop
  | .reader n => s.1.reader = .control →
      (s.1.dataMode → data.length < s.1.input.length → n ≠ 0) ∧
        (s.1.input.length ≤ data.length → s.1.input.take (min n 1) = [])
  | .main _ => Program.next s.2 = some .setDataMode →
      s.1.input.length ≤ data.length ∨ s.1.reader = .control ∧ s.1.input.length = data.length + 1

instance (data : List Byte) (s : Entry) (e : EntryEvent) : Decidable (Timely data s e) :=
  match e with
  | .reader _ => inferInstanceAs (Decidable (_ → (_ → _ → _) ∧ (_ → _)))
  | .main _ => inferInstanceAs (Decidable (_ → _ ∨ _ ∧ _))

/-! ## The operations of `enter_data_mode` -/

def Op.Entering : Op → Prop
  | .write _ | .monotonic | .getLine _ | .setDataMode => True
  | _ => False

theorem uses_enterDataMode (timeout : Int) : (enterDataMode timeout).Uses Op.Entering := by
  refine uses_bind (uses_writeLine_of (fun _ => trivial) _) fun _ => ?_
  refine uses_bind (uses_waitOk_of trivial (fun _ => trivial) _) fun _ => ?_
  refine uses_bind (uses_readUntil_of trivial (fun _ => trivial) _ _) fun _ => ?_
  exact uses_ask trivial

/-- They change none of this but the flag. -/
theorem perform_entering {w : Choice} {c c' : Client} {o : Op} {a : Answer o} (ho : o.Entering)
    (h : perform w c o = some (a, c')) :
    c'.input = c.input ∧ c'.dataQueue = c.dataQueue ∧ c'.reader = c.reader ∧ c'.exitPending = c.exitPending ∧
      (o ≠ .setDataMode → c'.dataMode = c.dataMode) := by
  have hperformed := performed h
  have hother : ∀ o' : Op, ¬o'.Entering → o ≠ o' := fun o' hne he => hne (he ▸ ho)
  exact ⟨hperformed.input (hother _ id), hperformed.dataQueue fun _ => hother _ id, hperformed.reader,
    hperformed.exitPending (hother _ id) (hother _ id), fun hset => hperformed.dataMode hset (hother _ id)⟩

/-! ## The invariant -/

/-- Effects other than those of an exit. -/
def Effect.Plain : Effect → Prop
  | .control _ | .data _ => True
  | _ => False

/-- What the reader does only in data mode. -/
def Reader.InData : Reader → Prop
  | .data | .got _ => True
  | .busy todo => ∃ chunk, .data chunk ∈ todo
  | _ => False

structure Entering (control data : List Byte) (c : Client) : Prop where
  pending : c.exitPending = false
  effects : ∀ todo, c.reader = .busy todo → ∀ e ∈ todo, e.Plain
  before : c.dataMode = false → ¬c.reader.InData ∧ ∃ left, left <:+ control ∧ c.input = left ++ data ∧ given c = []
  /-- The flag may be set while the last byte of the control part is being read. -/
  after : c.dataMode = true → given c ++ c.input = data ∨
    c.reader = .control ∧ given c = [] ∧ ∃ ch, c.input = ch :: data ∧ [ch] <:+ control

section
variable {control data : List Byte} {c : Client}

theorem Entering.exact (h : Entering control data c) : DataExact control data c := by
  cases hd : c.dataMode with
  | false => exact .inl (h.before hd).2
  | true =>
      rcases h.after hd with hdata | ⟨-, hempty, ch, hinput, hlast⟩
      · exact .inr hdata
      · exact .inl ⟨[ch], hlast, hinput, hempty⟩

/-- What a step of the reader leaves alone while no exit is awaited. -/
theorem act_plain (c : Client) {effect : Effect} (he : effect.Plain) :
    (c.act effect).input = c.input ∧ (c.act effect).exitPending = c.exitPending ∧
      (c.act effect).dataMode = c.dataMode ∧
      (c.act effect).dataQueue.flatten = c.dataQueue.flatten ++ effect.bytes := by
  cases effect with
  | control ch =>
      obtain ⟨buffer, lines, hlines⟩ := processControlByte_withLines c ch
      rw [act, hlines]
      exact ⟨rfl, rfl, rfl, (List.append_nil _).symm⟩
  | data chunk =>
      simp only [act, emitData, Effect.bytes]
      split
      · rename_i hempty
        subst hempty
        exact ⟨rfl, rfl, rfl, (List.append_nil _).symm⟩
      · exact ⟨rfl, rfl, rfl, by simp⟩
  | _ => exact he.elim

/-- The input and what is given stay, and no data mode work begins. -/
theorem Entering.of_same (h : Entering control data c) {c' : Client} (hp : c'.exitPending = c.exitPending)
    (hd : c'.dataMode = c.dataMode) (hi : c'.input = c.input) (hg : given c' = given c)
    (he : ∀ todo, c'.reader = .busy todo → ∀ e ∈ todo, e.Plain) (hr : c.dataMode = false → ¬c'.reader.InData)
    (hk : c.reader = .control → c'.reader = .control) : Entering control data c' where
  pending := hp.trans h.pending
  effects := he
  before hd' := by
    rw [hd] at hd'
    rw [hi, hg]
    exact ⟨hr hd', (h.before hd').2⟩
  after hd' := by
    rw [hi, hg]
    exact (h.after (hd ▸ hd')).imp_right fun hlast => ⟨hk hlast.1, hlast.2⟩

/-- A `read(1)` that returns nothing. -/
theorem Entering.readNone (h : Entering control data c) (hr : c.reader = .control)
    (hlast : c.dataMode → ¬data.length < c.input.length) : Entering control data { c with reader := .top } := by
  have hgiven : given { c with reader := .top } = given c := by simp [given, hr, Reader.held]
  refine ⟨h.pending, fun todo ht => ?_, fun hd => ⟨id, ?_⟩, fun hd => .inl ?_⟩
  · cases ht
  · rw [hgiven]
    exact (h.before hd).2
  · rw [hgiven]
    rcases h.after hd with hdata | ⟨-, -, ch, hinput, -⟩
    · exact hdata
    · exact absurd (by simp [hinput]) (hlast hd)

/-- A `read(1)` that returns a byte of the control part. -/
theorem Entering.readByte (h : Entering control data c) (hr : c.reader = .control) {ch : Byte} {rest : List Byte}
    (hinput : c.input = ch :: rest) (hlong : data.length < c.input.length) :
    Entering control data { c with input := rest, reader := .busy [.control ch] } := by
  have hgiven : given { c with input := rest, reader := .busy [.control ch] } = given c := by
    simp [given, hr, Reader.held, Effect.bytes]
  refine ⟨h.pending, ?_, fun hd => ⟨?_, ?_⟩, fun hd => .inl ?_⟩
  · rintro todo ht e he
    cases ht
    rw [List.mem_singleton.mp he]
    trivial
  · rintro ⟨chunk, hmem⟩
    cases List.mem_singleton.mp hmem
  · obtain ⟨-, left, hleft, hsplit, hempty⟩ := h.before hd
    cases left with
    | nil =>
        rw [hsplit] at hlong
        exact absurd hlong (Nat.lt_irrefl _)
    | cons ch' left =>
        rw [hinput] at hsplit
        obtain ⟨rfl, hrest⟩ := List.cons.inj hsplit
        exact ⟨left, (List.suffix_cons _ _).trans hleft, hrest, hgiven.trans hempty⟩
  · rw [hgiven]
    rcases h.after hd with hdata | ⟨-, hempty, ch', hlast, -⟩
    · have hlen := congrArg List.length hdata
      rw [List.length_append] at hlen
      omega
    · rw [hinput] at hlast
      obtain ⟨-, rfl⟩ := List.cons.inj hlast
      rw [hempty]
      rfl

theorem Entering.readControl (h : Entering control data c) (hr : c.reader = .control) {n : Nat}
    (hlast : c.dataMode → data.length < c.input.length → n ≠ 0)
    (hnone : c.input.length ≤ data.length → c.input.take (min n 1) = []) : Entering control data (c.readerStep n) := by
  cases hinput : c.input with
  | nil =>
      have hc : { c with input := [] } = c := by rw [← hinput]
      simp only [readerStep, hr, hinput, List.take_nil, List.drop_nil, if_true]
      have hn := h.readNone hr fun _ => by simp [hinput]
      rwa [← hc] at hn
  | cons ch rest =>
      cases n with
      | zero =>
          have hc : { c with input := ch :: rest, reader := Reader.top } = { c with reader := Reader.top } := by
            rw [← hinput]
          simp only [readerStep, hr, hinput, Nat.zero_min, List.take_zero, List.drop_zero, if_true]
          rw [hc]
          exact h.readNone hr fun hd hlt => hlast hd hlt rfl
      | succ n =>
          have hmin : min (n + 1) 1 = 1 := by omega
          have hlong : data.length < c.input.length := by
            refine Nat.not_le.mp fun hle => ?_
            have hempty := hnone hle
            rw [hmin, hinput] at hempty
            cases hempty
          simp only [readerStep, hr, hinput, hmin, List.take_succ_cons, List.take_zero, List.drop_succ_cons,
            List.drop_zero, List.map_cons, List.map_nil, reduceCtorEq, if_false]
          exact h.readByte hr hinput hlong

theorem Entering.readData (h : Entering control data c) (hr : c.reader = .data) (n : Nat) :
    Entering control data (c.readerStep n) := by
  have hd : c.dataMode = true := by
    rw [← Bool.not_eq_false]
    intro hd
    exact (h.before hd).1 (by rw [hr]; trivial)
  have hall : c.dataQueue.flatten ++ c.input = data := by
    have hheld : given c = c.dataQueue.flatten := by simp [given, hr, Reader.held]
    rw [← hheld]
    rcases h.after hd with hdata | ⟨hctl, -⟩
    · exact hdata
    · rw [hr] at hctl
      cases hctl
  have hsplit := List.take_append_drop (min n 256) c.input
  simp only [readerStep, hr]
  refine ⟨h.pending, ?_, fun hd' => absurd (hd.symm.trans hd') (by decide), fun _ => .inl ?_⟩
  · intro todo ht
    split at ht
    · cases ht
    · cases ht
  · split
    · rename_i hnone
      rw [hnone, List.nil_append] at hsplit
      simp only [given, Reader.held, List.append_nil, hsplit]
      exact hall
    · simp only [given, Reader.held, List.append_assoc, hsplit]
      exact hall

theorem Entering.act (h : Entering control data c) {effect : Effect} {todo : List Effect}
    (hr : c.reader = .busy (effect :: todo)) : Entering control data { c.act effect with reader := .busy todo } := by
  have hplain : effect.Plain := h.effects _ hr effect List.mem_cons_self
  obtain ⟨hinput, hpending, hmode, hqueue⟩ := act_plain c hplain
  refine h.of_same hpending hmode hinput ?_ ?_ ?_ fun hctl => ?_
  · simp only [given, hqueue, hr, Reader.held, List.map_cons, List.flatten_cons, List.append_assoc]
  · intro todo' ht e he
    cases ht
    exact h.effects _ hr e (List.mem_cons_of_mem _ he)
  · rintro hd ⟨chunk, hmem⟩
    exact (h.before hd).1 (by rw [hr]; exact ⟨chunk, List.mem_cons_of_mem _ hmem⟩)
  · rw [hr] at hctl
    cases hctl

theorem Entering.readerStep (h : Entering control data c) {n : Nat}
    (hc : c.reader = .control → (c.dataMode → data.length < c.input.length → n ≠ 0) ∧
      (c.input.length ≤ data.length → c.input.take (min n 1) = [])) : Entering control data (c.readerStep n) := by
  cases hr : c.reader with
  | top =>
      simp only [Client.readerStep, hr]
      refine h.of_same rfl rfl rfl ?_ (fun todo ht => ?_) (fun hd => ?_) fun hctl => ?_
      · cases hd : c.dataMode with
        | _ => simp [given, hr, Reader.held]
      · split at ht
        · cases ht
        · cases ht
      · rw [if_neg (by simp [hd])]
        exact id
      · rw [hr] at hctl
        cases hctl
  | control => exact h.readControl hr (hc hr).1 (hc hr).2
  | data => exact h.readData hr n
  | got chunk =>
      simp only [Client.readerStep, hr, h.pending, Bool.false_eq_true, if_false]
      refine h.of_same h.pending.symm rfl rfl ?_ (fun todo ht e he => ?_) (fun hd => ?_) fun hctl => ?_
      · simp [given, hr, Reader.held, Effect.bytes]
      · cases ht
        rw [List.mem_singleton.mp he]
        trivial
      · exact absurd (by rw [hr]; trivial) (h.before hd).1
      · rw [hr] at hctl
        cases hctl
  | busy todo =>
      cases todo with
      | nil =>
          simp only [Client.readerStep, hr]
          refine h.of_same rfl rfl rfl ?_ (fun todo ht => ?_) (fun _ => id) fun hctl => ?_
          · simp [given, hr, Reader.held]
          · cases ht
          · rw [hr] at hctl
            cases hctl
      | cons effect todo =>
          simp only [Client.readerStep, hr]
          exact h.act hr

end

/-! ## Runs -/

structure EntryKept (control data : List Byte) (s : Entry) : Prop where
  client : Entering control data s.1
  main : s.2.Uses Op.Entering

section
variable {control data : List Byte}

/-- The flag is set. -/
theorem Entering.setDataMode {c c' : Client} (h : Entering control data c)
    (hc : c.input.length ≤ data.length ∨ c.reader = .control ∧ c.input.length = data.length + 1)
    (hd' : c'.dataMode = true) (hi : c'.input = c.input) (hr : c'.reader = c.reader) (hg : given c' = given c)
    (hp : c'.exitPending = c.exitPending) : Entering control data c' := by
  refine ⟨hp.trans h.pending, fun todo ht => h.effects todo (hr ▸ ht), fun hd => ?_, fun _ => ?_⟩
  · rw [hd'] at hd
    cases hd
  · rw [hg, hi, hr]
    cases hd : c.dataMode with
    | true => exact h.after hd
    | false =>
        obtain ⟨-, left, hleft, hsplit, hempty⟩ := h.before hd
        rw [hsplit, List.length_append] at hc
        rcases hc with hread | ⟨hctl, hlast⟩
        · obtain rfl : left = [] := List.length_eq_zero_iff.mp (by omega)
          exact .inl (by rw [hempty, hsplit]; rfl)
        · obtain ⟨ch, rfl⟩ : ∃ ch, left = [ch] := List.length_eq_one_iff.mp (by omega)
          exact .inr ⟨hctl, hempty, ch, hsplit, hleft⟩

theorem EntryKept.mainTurn {s : Entry} (h : EntryKept control data s) {w : Choice}
    (hc : Timely data s (.main w)) : EntryKept control data (mainTurn s w) := by
  refine ⟨?_, uses_turn _ _ h.main⟩
  rcases Prog.turn_cases (perform w) s.1 s.2 with hsame | ⟨o, next, a, c', hop, hperform, hsame⟩
  · rw [Client.mainTurn, hsame]
    exact h.client
  · have ho : o.Entering := by
      have hmain := h.main
      rw [hop] at hmain
      exact hmain.1
    obtain ⟨hinput, hqueue, hreader, hpending, hmode⟩ := perform_entering ho hperform
    have hgiven : given c' = given s.1 := by rw [given, given, hqueue, hreader]
    rw [Client.mainTurn, hsame]
    by_cases hset : o = .setDataMode
    · subst hset
      have hd' : c'.dataMode = true := by
        cases hperform
        rfl
      exact h.client.setDataMode (hc (by rw [hop]; rfl)) hd' hinput hreader hgiven hpending
    · refine h.client.of_same hpending (hmode hset) hinput hgiven (fun todo ht => h.client.effects todo (hreader ▸ ht))
        (fun hd => ?_) fun hctl => hreader.trans hctl
      rw [hreader]
      exact (h.client.before hd).1

theorem EntryKept.step {s : Entry} (h : EntryKept control data s) {e : EntryEvent} (hc : Timely data s e) :
    EntryKept control data (entryStep s e) := by
  cases e with
  | reader n => exact ⟨h.client.readerStep hc, h.main⟩
  | main w => exact h.mainTurn hc

theorem entryKept_start (c : Client) (control data : List Byte) (timeout : Int) :
    EntryKept control data (entryStart c control data timeout) := by
  refine ⟨⟨rfl, fun todo ht => ?_, fun _ => ⟨id, control, List.suffix_rfl, rfl, rfl⟩, fun hd => ?_⟩,
    uses_enterDataMode timeout⟩
  · cases ht
  · cases hd

end

/-- However the two threads take turns, in every state of a run whose steps are timely the data are exact. -/
theorem data_exact_at_entry (c : Client) (lines : List Text) (data : List Byte) (timeout : Int) {es : List EntryEvent}
    (hc : Runs.Along (Timely data) entryStep (entryStart c (controlPart lines) data timeout) es) :
    DataExact (controlPart lines) data
      (Runs.run entryStep (entryStart c (controlPart lines) data timeout) es).1 :=
  (Runs.run_invariant_along (P := EntryKept (controlPart lines) data) (fun _ _ hc h => h.step hc)
    (entryKept_start c _ data timeout) hc).client.exact

/-! ## Two runs -/

def readerTurns (n : Nat) : List EntryEvent := List.replicate n (.reader 256)
def mainTurns (n : Nat) : List EntryEvent := List.replicate n (.main ⟨0, false, 0⟩)

/-- The reader reads up to the line feed, the flag is set, and the reader reads the data. -/
def timelyRun : List EntryEvent := readerTurns 88 ++ mainTurns 12 ++ readerTurns 4

/-- The flag is set when the carriage return has been read. -/
def earlyRun : List EntryEvent := readerTurns 84 ++ mainTurns 12 ++ readerTurns 4

set_option maxRecDepth 20000 in
theorem data_exact_timely :
    DataExact (controlPart [ascii "+OK"]) (ascii "hi")
      (Runs.run entryStep (entryStart .init (controlPart [ascii "+OK"]) (ascii "hi") 5000) timelyRun).1 :=
  data_exact_at_entry .init [ascii "+OK"] (ascii "hi") 5000 (by decide)

set_option maxRecDepth 20000 in
/-- The line feed is emitted as data. -/
theorem line_feed_emitted :
    let s := Runs.run entryStep (entryStart .init (controlPart [ascii "+OK"]) (ascii "hi") 5000) earlyRun
    ¬DataExact (controlPart [ascii "+OK"]) (ascii "hi") s.1 ∧ s.1.dataQueue = [ascii "\nhi"] := by
  have hrun : (Runs.run entryStep (entryStart .init (controlPart [ascii "+OK"]) (ascii "hi") 5000) earlyRun).1.dataQueue =
      [ascii "\nhi"] ∧
      given (Runs.run entryStep (entryStart .init (controlPart [ascii "+OK"]) (ascii "hi") 5000) earlyRun).1 =
        ascii "\nhi" := by decide
  generalize Runs.run entryStep (entryStart .init (controlPart [ascii "+OK"]) (ascii "hi") 5000) earlyRun = s at hrun
  obtain ⟨hqueue, hgiven⟩ := hrun
  refine ⟨?_, hqueue⟩
  rintro (⟨left, -, -, hempty⟩ | hdata)
  · rw [hgiven] at hempty
    cases hempty
  · rw [hgiven] at hdata
    have hlen := congrArg List.length hdata
    rw [List.length_append] at hlen
    have hthree : (ascii "\nhi").length = 3 := rfl
    have htwo : (ascii "hi").length = 2 := rfl
    omega

end BleAtHost.Client
