import BleAtHost.AtHost.Command

/-!
# What a command does to the parser

Every command but `AT+SEND` leaves the parser alone and only makes calls; `AT+SEND` opens a payload if its
arguments are good.
-/

namespace BleAtHost.AtHost

variable {σ : Type} (ops : Ops σ) (tx : Tx σ)

/-- From `w` to `w'` there are only calls. -/
structure Emits (w w' : World σ) : Prop where
  host : w'.host = w.host
  trace : w.trace <:+ w'.trace

namespace Emits

variable {w w' w'' : World σ}

theorem refl (w : World σ) : Emits w w := ⟨rfl, List.suffix_refl _⟩

theorem trans (h : Emits w w') (h' : Emits w' w'') : Emits w w'' :=
  ⟨h'.host.trans h.host, h.trace.trans h'.trace⟩

theorem txLine (w : World σ) (line : Text) : Emits w (txLine tx w line) := ⟨rfl, List.suffix_cons _ _⟩

theorem called {ρ : Type} (w : World σ) (call : Call) (r : ρ × σ) : Emits w (w.called call r).2 :=
  ⟨rfl, List.suffix_cons _ _⟩

theorem emitError (w : World σ) (kind : ErrorKind) : Emits w (emitError tx w kind) := txLine tx w _

theorem invalidParameters (w : World σ) : Emits w (invalidParameters tx w) := emitError tx w _

theorem respond (w : World σ) (err : Int) : Emits w (respond tx w err) := by
  unfold AtHost.respond
  split
  · exact emitError tx w _
  · exact txLine tx w _

theorem withConnIndex (w : World σ) (payload : Text) {f : Nat → World σ} (hf : ∀ connIndex, Emits w (f connIndex)) :
    Emits w (withConnIndex tx w payload f) := by
  unfold AtHost.withConnIndex
  split
  · exact invalidParameters tx w
  · split
    · exact invalidParameters tx w
    · exact hf _

theorem handleGetStatus (w : World σ) : Emits w (handleGetStatus ops tx w) := by
  have hc := called w .getStatus (ops.getStatus w.ctx)
  simp only [AtHost.handleGetStatus]
  split
  · exact hc.trans (txLine tx _ _)
  · exact (hc.trans (txLine tx _ _)).trans (txLine tx _ _)

theorem handleGetProfile (w : World σ) : Emits w (handleGetProfile ops tx w) :=
  (called w .getProfile (ops.getProfile w.ctx)).trans (txLine tx _ _)

theorem handleGetMtu (w : World σ) : Emits w (handleGetMtu ops tx w) :=
  (called w .getMtu (ops.getMtu w.ctx)).trans (txLine tx _ _)

theorem handleGetStreamStats (w : World σ) : Emits w (handleGetStreamStats ops tx w) :=
  (called w .getStreamStats (ops.getStreamStats w.ctx)).trans (txLine tx _ _)

theorem processStartScan (w : World σ) (payload : Text) : Emits w (processStartScan ops tx w payload) := by
  unfold AtHost.processStartScan
  split
  · exact invalidParameters tx w
  · split
    · exact invalidParameters tx w
    · exact invalidParameters tx w
    · exact (called w _ _).trans (respond tx _ _)

theorem processStartCon (w : World σ) (payload : Text) : Emits w (processStartCon ops tx w payload) := by
  unfold AtHost.processStartCon
  split
  · split
    · exact invalidParameters tx w
    · split
      · exact invalidParameters tx w
      · exact (called w _ _).trans (respond tx _ _)
  · exact invalidParameters tx w

theorem processDiscon (w : World σ) (payload : Text) : Emits w (processDiscon ops tx w payload) :=
  withConnIndex tx w payload fun _ => (called w _ _).trans (respond tx _ _)

theorem processSetSvcUuid (w : World σ) (payload : Text) : Emits w (processSetSvcUuid ops tx w payload) := by
  unfold AtHost.processSetSvcUuid
  split
  · exact (called w _ _).trans (respond tx _ _)
  · exact invalidParameters tx w

theorem processSetMtu (w : World σ) (payload : Text) : Emits w (processSetMtu ops tx w payload) := by
  unfold AtHost.processSetMtu
  split
  · exact invalidParameters tx w
  · exact (called w _ _).trans (respond tx _ _)

theorem processConMtuReq (w : World σ) (payload : Text) : Emits w (processConMtuReq ops tx w payload) :=
  withConnIndex tx w payload fun _ => (called w _ _).trans (respond tx _ _)

theorem processConParaReq (w : World σ) (payload : Text) : Emits w (processConParaReq ops tx w payload) := by
  unfold AtHost.processConParaReq
  split
  · split
    · exact invalidParameters tx w
    · exact (called w _ _).trans (respond tx _ _)
  · exact invalidParameters tx w

theorem processEnterDataMode (w : World σ) (payload : Text) : Emits w (processEnterDataMode ops tx w payload) := by
  refine withConnIndex tx w payload fun connIndex => ?_
  have hc := called w (.enterDataMode connIndex) (ops.enterDataMode w.ctx connIndex)
  dsimp only
  split
  · exact hc.trans (emitError tx _ _)
  · exact (hc.trans (txLine tx _ _)).trans (txLine tx _ _)

end Emits

/-! ## `AT+SEND` -/

/-- The connection index and the length in the arguments of `AT+SEND`, if they are good. -/
def sendArgs (payload : Text) : Option (Nat × Nat) :=
  match splitArgs MAX_ARGS payload with
  | [indexText, lengthText] =>
      match parseUint16Value indexText, parseUint16Value lengthText with
      | some connIndex, some length =>
          if 255 < connIndex ∨ length = 0 ∨ BLE_HOST_SEND_MAX_LEN < length then none else some (connIndex, length)
      | _, _ => none
  | _ => none

/-- The connection index and the length that a line asks for, if it is a good `AT+SEND`. -/
def sendRequest (line : Text) : Option (Nat × Nat) :=
  let working := trimWhitespace (snprintk LINE_BUFFER_SIZE line)
  if startsWithIgnoreCase working (ascii "AT+SEND=") then sendArgs (working.drop (ascii "AT+SEND=").length) else none

/-- The parser with an open payload. -/
def State.opened (host : State) (connIndex length : Nat) : State :=
  { host with payloadMode := true, payloadExpected := length, payloadBuffer := [], payloadConnIndex := connIndex }

theorem sendArgs_pos {payload : Text} {connIndex length : Nat} (h : sendArgs payload = some (connIndex, length)) :
    0 < length := by
  unfold sendArgs at h
  split at h
  · split at h
    · split at h
      · cases h
      · rename_i hgood
        obtain ⟨_, rfl⟩ := Prod.mk.inj (Option.some.inj h)
        exact Nat.pos_of_ne_zero fun h0 => hgood (.inr (.inl h0))
    · cases h
  · cases h

theorem sendRequest_pos {line : Text} {connIndex length : Nat} (h : sendRequest line = some (connIndex, length)) :
    0 < length := by
  simp only [sendRequest] at h
  split at h
  · exact sendArgs_pos h
  · cases h

theorem processSend_eq (w : World σ) (payload : Text) :
    processSend tx w payload =
      match sendArgs payload with
      | some (connIndex, length) =>
          (.enterPayload, txRaw tx { w with host := w.host.opened connIndex length } (ascii ">"))
      | none => (.none, invalidParameters tx w) := by
  unfold processSend sendArgs
  rcases splitArgs MAX_ARGS payload with _ | ⟨indexText, _ | ⟨lengthText, _ | ⟨_, _⟩⟩⟩
  · rfl
  · rfl
  · cases hi : parseUint16Value indexText with
    | none => simp only [hi]
    | some connIndex =>
        cases hl : parseUint16Value lengthText with
        | none => simp only [hi, hl]
        | some length =>
            simp only [hi, hl]
            split
            · rfl
            · rfl
  · rfl

/-! ## `process_command` -/

/-- A line that starts with one name starts with no other that differs from it within the shorter of them. -/
theorem not_startsWith {text name : Text} (name' : Text) (h : startsWithIgnoreCase text name = true)
    (hne : (name.map toUpper).take (min name.length name'.length) ≠
      (name'.map toUpper).take (min name.length name'.length)) :
    startsWithIgnoreCase text name' = false := by
  rw [Bool.eq_false_iff]
  intro h'
  simp only [startsWithIgnoreCase, beq_iff_eq] at h h'
  apply hne
  rw [← h, ← h', ← List.map_take, ← List.map_take, List.take_take, List.take_take]
  congr 2
  omega

theorem not_equals {text name : Text} (name' : Text) (h : startsWithIgnoreCase text name = true)
    (hlt : name'.length < name.length) : equalsIgnoreCase text name' = false := by
  rw [Bool.eq_false_iff]
  intro h'
  simp only [startsWithIgnoreCase, equalsIgnoreCase, beq_iff_eq] at h h'
  have hl := congrArg List.length h
  have hl' := congrArg List.length h'
  simp only [List.length_map, List.length_take] at hl hl'
  omega

/-- The command is over and only made calls. -/
def Over (w : World σ) (r : CommandResult × World σ) : Prop := r.1 = .none ∧ Emits w r.2

theorem Over.of_ite {w : World σ} {c : Prop} [Decidable c] {r r' : CommandResult × World σ} (h : c → Over w r)
    (h' : Over w r') : Over w (if c then r else r') := by
  split
  · exact h ‹_›
  · exact h'

theorem processCommand_none (w : World σ) {line : Text} (h : sendRequest line = none) :
    Over w (processCommand ops tx w line) := by
  unfold processCommand
  refine Over.of_ite (fun _ => ⟨rfl, .refl w⟩) ?_
  refine Over.of_ite (fun _ => ⟨rfl, .txLine tx w _⟩) ?_
  refine Over.of_ite (fun _ => ⟨rfl, .processStartScan ops tx w _⟩) ?_
  refine Over.of_ite (fun _ => ⟨rfl, .processStartCon ops tx w _⟩) ?_
  refine Over.of_ite (fun _ => ⟨rfl, .processDiscon ops tx w _⟩) ?_
  refine Over.of_ite (fun hs => ?_) ?_
  · have hargs := (if_pos hs).symm.trans h
    rw [processSend_eq, hargs]
    exact ⟨rfl, .invalidParameters tx w⟩
  refine Over.of_ite (fun _ => ⟨rfl, .handleGetStatus ops tx w⟩) ?_
  refine Over.of_ite (fun _ => ⟨rfl, .processSetSvcUuid ops tx w _⟩) ?_
  refine Over.of_ite (fun _ => ⟨rfl, .handleGetProfile ops tx w⟩) ?_
  refine Over.of_ite (fun _ => ⟨rfl, .processSetMtu ops tx w _⟩) ?_
  refine Over.of_ite (fun _ => ⟨rfl, .handleGetMtu ops tx w⟩) ?_
  refine Over.of_ite (fun _ => ⟨rfl, .processConMtuReq ops tx w _⟩) ?_
  refine Over.of_ite (fun _ => ⟨rfl, .processConParaReq ops tx w _⟩) ?_
  refine Over.of_ite (fun _ => ⟨rfl, .processEnterDataMode ops tx w _⟩) ?_
  refine Over.of_ite (fun _ => ⟨rfl, .handleGetStreamStats ops tx w⟩) ?_
  exact Over.of_ite (fun _ => ⟨rfl, .emitError tx w _⟩) ⟨rfl, .emitError tx w _⟩

theorem processCommand_some (w : World σ) {line : Text} {connIndex length : Nat}
    (h : sendRequest line = some (connIndex, length)) :
    processCommand ops tx w line =
      (.enterPayload, txRaw tx { w with host := w.host.opened connIndex length } (ascii ">")) := by
  simp only [sendRequest] at h
  split at h
  · rename_i hs
    have hne : trimWhitespace (snprintk LINE_BUFFER_SIZE line) ≠ [] := by
      intro he
      rw [he] at hs
      exact absurd hs (by decide)
    have hat := not_equals (ascii "AT") hs (by decide)
    have hscan := not_startsWith (ascii "AT+STARTSCAN=") hs (by decide)
    have hcon := not_startsWith (ascii "AT+STARTCON=") hs (by decide)
    have hdiscon := not_startsWith (ascii "AT+DISCON=") hs (by decide)
    simp only [processCommand, hat, hscan, hcon, hdiscon, hs, if_neg hne, processSend_eq, h]
    simp only [Bool.false_eq_true, if_false, if_true]
  · cases h

end BleAtHost.AtHost
