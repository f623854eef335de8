import BleAtHost.AtHost.Theorems
import BleAtHost.AtHost.Lemmas.Replies
import BleAtHost.Lib.Fields

/-!
# The grammar of the commands

`split_args` stops at the fifth field and takes no field from an empty tail. So a command may be carried out although
its line has more fields than the grammar gives it.
-/

namespace BleAtHost.AtHost

variable {σ : Type} (ops : Ops σ) (tx : Tx σ)

/-- A line that `line_buffer` can hold. -/
structure CommandLine where
  text : Text
  fits : text.length < LINE_BUFFER_SIZE

namespace CommandLine

def trimmed (line : CommandLine) : Text := trimWhitespace line.text

/-- What stands before the equals sign. -/
def name (line : CommandLine) : Text := line.trimmed.takeWhile (· ≠ 61)

/-- What stands after it. -/
def argument (line : CommandLine) : Text := (line.trimmed.dropWhile (· ≠ 61)).drop 1

/-- The fields of the argument. -/
def fields (line : CommandLine) : List Text := line.argument.splitOn 44

/-- The lines differ in the letter case of the command name and in the whitespace around the line alone. -/
def SameCommand (line line' : CommandLine) : Prop :=
  line.name.map toUpper = line'.name.map toUpper ∧
    line.trimmed.dropWhile (· ≠ 61) = line'.trimmed.dropWhile (· ≠ 61)

theorem workingLine_eq (line : CommandLine) : workingLine line.text = line.trimmed := by
  have hfits := line.fits
  have hcut : snprintk LINE_BUFFER_SIZE line.text = line.text := List.take_of_length_le (by omega)
  rw [workingLine, hcut, trimmed]

end CommandLine

/-! ## The argument -/

theorem toUpper_eq_equals {ch : Byte} : toUpper ch = 61 ↔ ch = 61 := by
  unfold toUpper
  split
  · rename_i hlower
    simp only [Bool.and_eq_true, decide_eq_true_eq, UInt8.le_iff_toNat_le] at hlower
    constructor
    · intro he
      have hnat := congrArg UInt8.toNat he
      have hlow : (97 : UInt8).toNat = 97 := rfl
      have hhigh : (122 : UInt8).toNat = 122 := rfl
      have hsub : (ch - 32).toNat = ch.toNat - 32 := by
        refine UInt8.toNat_sub_of_le _ _ ?_
        rw [UInt8.le_iff_toNat_le]
        have h32 : (32 : UInt8).toNat = 32 := rfl
        omega
      have h61 : (61 : UInt8).toNat = 61 := rfl
      rw [hsub, h61] at hnat
      omega
    · rintro rfl
      have hlow := hlower.1
      simp at hlow
  · exact Iff.rfl

/-- A command that ends with an equals sign is followed by the argument. -/
theorem drop_name {text name : Text} (hname : 61 ∉ name.map toUpper)
    (h : startsWithIgnoreCase text (name ++ [61]) = true) :
    text.drop (name ++ [61]).length = (text.dropWhile (· ≠ 61)).drop 1 := by
  induction name generalizing text with
  | nil =>
      cases text with
      | nil => rfl
      | cons ch text =>
          have hch : ch = 61 := by
            simp only [startsWithIgnoreCase, List.nil_append, List.length_singleton, List.take_succ_cons,
              List.take_zero, List.map_cons, List.map_nil, beq_iff_eq, List.cons.injEq, and_true] at h
            exact toUpper_eq_equals.mp h
          simp [hch]
  | cons first name ih =>
      cases text with
      | nil => simp
      | cons ch text =>
          simp only [startsWithIgnoreCase, List.cons_append, List.length_cons, List.take_succ_cons, List.map_cons,
            beq_iff_eq, List.cons.injEq] at h
          obtain ⟨hfirst, hrest⟩ := h
          simp only [List.map_cons, List.mem_cons, not_or] at hname
          have hch : ch ≠ 61 := fun he => hname.1 (by rw [← hfirst, he]; rfl)
          have hdrop := ih hname.2 (beq_iff_eq.mpr hrest)
          rw [List.dropWhile_cons_of_pos (by simpa using hch), ← hdrop]
          rfl

/-- The name of a command that takes arguments: its equals sign is the last character and the only one. -/
def TakesArguments (name : Text) : Prop := name = name.dropLast ++ [61] ∧ 61 ∉ name.dropLast.map toUpper

instance (name : Text) : Decidable (TakesArguments name) := inferInstanceAs (Decidable (_ ∧ _))

theorem drop_length {text name : Text} (hname : TakesArguments name) (h : startsWithIgnoreCase text name = true) :
    text.drop name.length = (text.dropWhile (· ≠ 61)).drop 1 := by
  have hdrop := drop_name hname.2 (hname.1 ▸ h)
  rw [← hname.1] at hdrop
  exact hdrop

/-- What `split_args` finds. -/
theorem splitArgs_eq (n : Nat) (text : Text) : splitArgs n text = (Fields.dropEmptyLast (text.splitOn 44)).take n := by
  induction n generalizing text with
  | zero => simp [splitArgs]
  | succ n ih =>
      cases text with
      | nil => rfl
      | cons ch text =>
          have hfirst := Fields.splitOn_step 44 (ch :: text)
          rw [splitArgs, hfirst]
          · cases hrest : (ch :: text).dropWhile (· ≠ 44) with
            | nil =>
                have hall : (ch :: text).takeWhile (· ≠ 44) = ch :: text := by
                  have hsplit := List.takeWhile_append_dropWhile (p := (· ≠ 44)) (l := ch :: text)
                  rw [hrest, List.append_nil] at hsplit
                  exact hsplit
                rw [hall, ih]
                rfl
            | cons comma rest =>
                rw [Fields.dropEmptyLast_cons (.inr (List.splitOn_ne_nil 44 rest)), List.take_succ_cons, ← ih]
                rfl
          · simp

/-- The field count of a command is bounded by the fields found. -/
theorem fields_of_splitArgs {n : Nat} {text : Text} {args : List Text} (h : splitArgs n text = args)
    (hn : args.length < n) : text.splitOn 44 = args ∨ text.splitOn 44 = args ++ [[]] := by
  rw [splitArgs_eq] at h
  have hall : Fields.dropEmptyLast (text.splitOn 44) = args := by
    rw [← h, List.length_take] at hn
    rw [← h, List.take_of_length_le (by omega)]
  rcases Fields.dropEmptyLast_cases (text.splitOn 44) with he | he
  · exact .inl (he.symm.trans hall)
  · exact .inr (he.trans (by rw [hall]))

theorem splitArgs_of_fields {n : Nat} {text : Text} {args : List Text} (h : text.splitOn 44 = args ++ [[]])
    (hn : args.length ≤ n) : splitArgs n text = args := by
  rw [splitArgs_eq, h, Fields.dropEmptyLast_concat, List.take_of_length_le hn]

/-- With more fields than there is room for, the first ones are found. -/
theorem splitArgs_of_more {n : Nat} {text : Text} (h : n < (text.splitOn 44).length) :
    splitArgs n text = (text.splitOn 44).take n := by
  rw [splitArgs_eq]
  rcases Fields.dropEmptyLast_cases (text.splitOn 44) with he | he
  · rw [he]
  · have hlen := congrArg List.length he
    rw [List.length_append, List.length_singleton] at hlen
    conv => rhs; rw [he]
    rw [List.take_append_of_le_length (by omega)]

/-! ## The grammar -/

/-- The documented fields give the values of the call. -/
def Documented (fields : List Text) : Call → Prop
  | .startScan durationS filterName =>
      (∃ duration, fields = [duration] ∧ parseUint16Value duration = some durationS ∧ filterName = none) ∨
        ∃ duration name, fields = [duration, name] ∧ parseUint16Value duration = some durationS ∧
          filterName = if name = [] then none else some name
  | .connect mac addrType => ∃ typeText, fields = [mac, typeText] ∧ parseUint16Value typeText = some addrType
  | .setProfile service notify write => fields = [service, notify, write]
  | .setConnParams connIndex minInterval maxInterval latency timeout =>
      fields.mapM parseUint16Value = some [connIndex, minInterval, maxInterval, latency, timeout]
  | _ => True

/-- The operations are called and the payload mode is entered for documented fields and with their values, and the
outcome depends neither on the letter case of the name nor on the whitespace around the line. -/
structure GrammarExact (w : World σ) (line : CommandLine) : Prop where
  calls : ∀ call ∈ callsSince w (processCommand ops tx w line.text).2, Documented line.fields call
  payload : (processCommand ops tx w line.text).1 = .enterPayload → ∃ indexText lengthText,
    line.fields = [indexText, lengthText] ∧
      parseUint16Value indexText = some (processCommand ops tx w line.text).2.host.payloadConnIndex ∧
      parseUint16Value lengthText = some (processCommand ops tx w line.text).2.host.payloadExpected
  same : ∀ line' : CommandLine, line'.SameCommand line →
    processCommand ops tx w line'.text = processCommand ops tx w line.text

/-- The documented fields are good, and a comma and perhaps more follow the last of them. -/
inductive Overfull (line : CommandLine) : Prop
  | startScan {duration name surplus : Text} {more : List Text} {durationS : Nat}
      (hs : startsWithIgnoreCase line.trimmed (ascii "AT+STARTSCAN="))
      (hf : line.fields = duration :: name :: surplus :: more)
      (hp : parseUint16Value duration = some durationS) (hne : durationS ≠ 0)
  | startCon {mac typeText : Text} {addrType : Nat} (hs : startsWithIgnoreCase line.trimmed (ascii "AT+STARTCON="))
      (hf : line.fields = [mac, typeText, []]) (hp : parseUint16Value typeText = some addrType) (hle : addrType ≤ 3)
  | send {indexText lengthText : Text} {connIndex length : Nat}
      (hs : startsWithIgnoreCase line.trimmed (ascii "AT+SEND=")) (hf : line.fields = [indexText, lengthText, []])
      (hi : parseUint16Value indexText = some connIndex) (hl : parseUint16Value lengthText = some length)
      (hc : connIndex ≤ 255) (hpos : 0 < length) (hle : length ≤ BLE_HOST_SEND_MAX_LEN)
  | setSvcUuid {service notify write : Text} (hs : startsWithIgnoreCase line.trimmed (ascii "AT+SETSVCUUID="))
      (hf : line.fields = [service, notify, write, []])
  | conParaReq {connIndex minInterval maxInterval latency timeout : Nat}
      (hs : startsWithIgnoreCase line.trimmed (ascii "AT+CONPARAREQ=")) (hlong : 5 < line.fields.length)
      (hp : (line.fields.take 5).mapM parseUint16Value = some [connIndex, minInterval, maxInterval, latency, timeout])
      (hc : connIndex ≤ 255)

namespace CommandLine

/-- The arguments that the code takes are those after the equals sign. -/
theorem drop_eq_argument {line : CommandLine} {name : Text} (hname : TakesArguments name)
    (h : startsWithIgnoreCase line.trimmed name = true) : line.trimmed.drop name.length = line.argument :=
  drop_length hname h

theorem fields_ne_nil (line : CommandLine) : line.fields ≠ [] := List.splitOn_ne_nil _ _

end CommandLine

theorem length_of_mapM {α β : Type} {f : α → Option β} {l : List α} {r : List β} (h : l.mapM f = some r) :
    r.length = l.length := by
  induction l generalizing r with
  | nil =>
      cases h
      rfl
  | cons a l ih =>
      rw [List.mapM_cons] at h
      cases hb : f a with
      | none => simp [hb] at h
      | some b =>
          cases hrest : l.mapM f with
          | none => simp [hb, hrest] at h
          | some rest =>
              simp only [hb, hrest, Option.pure_def, Option.bind_eq_bind, Option.bind_some] at h
              cases h
              rw [List.length_cons, List.length_cons, ih hrest]

/-- Only documented fields are left once the surplus ones are excluded. -/
theorem documented_of_asked {line : CommandLine} (hover : ¬Overfull line) {call : Call}
    (h : Asked line.trimmed call) : Documented line.fields call := by
  cases call with
  | startScan durationS filterName =>
      obtain ⟨hs, duration, rest, hargs, hparsed, hne, rfl⟩ := h
      have hdrop := CommandLine.drop_eq_argument (by decide) hs
      rw [hdrop, splitArgs_eq] at hargs
      change (Fields.dropEmptyLast line.fields).take MAX_ARGS = duration :: rest at hargs
      cases hf : line.fields with
      | nil => exact absurd hf line.fields_ne_nil
      | cons first more =>
          rw [hf] at hargs
          cases more with
          | nil =>
              cases first with
              | nil => cases hargs
              | cons ch first =>
                  cases hargs
                  exact .inl ⟨_, rfl, hparsed, rfl⟩
          | cons name more =>
              rw [Fields.dropEmptyLast_cons (.inr (List.cons_ne_nil _ _))] at hargs
              cases more with
              | nil =>
                  right
                  cases name with
                  | nil =>
                      cases hargs
                      exact ⟨duration, [], rfl, hparsed, rfl⟩
                  | cons ch name =>
                      cases hargs
                      exact ⟨duration, ch :: name, rfl, hparsed, rfl⟩
              | cons surplus more =>
                  have hfirst : first = duration := (List.cons.inj hargs).1
                  subst hfirst
                  exact absurd (.startScan hs hf hparsed hne) hover
  | connect mac addrType =>
      obtain ⟨hs, typeText, hargs, hparsed, hle⟩ := h
      have hdrop := CommandLine.drop_eq_argument (by decide) hs
      rw [hdrop] at hargs
      rcases fields_of_splitArgs hargs (by simp [MAX_ARGS]) with hf | hf
      · exact ⟨typeText, hf, hparsed⟩
      · exact absurd (.startCon hs hf hparsed hle) hover
  | setProfile service notify write =>
      obtain ⟨hs, hargs⟩ := h
      have hdrop := CommandLine.drop_eq_argument (by decide) hs
      rw [hdrop] at hargs
      rcases fields_of_splitArgs hargs (by simp [MAX_ARGS]) with hf | hf
      · exact hf
      · exact absurd (.setSvcUuid hs hf) hover
  | setConnParams connIndex minInterval maxInterval latency timeout =>
      obtain ⟨hs, hargs, hle⟩ := h
      have hdrop := CommandLine.drop_eq_argument (by decide) hs
      rw [hdrop] at hargs
      by_cases hlong : MAX_ARGS < line.fields.length
      · have hfirst : splitArgs MAX_ARGS line.argument = line.fields.take 5 := splitArgs_of_more hlong
        rw [hfirst] at hargs
        exact absurd (.conParaReq hs hlong hargs hle) hover
      · have hcount := length_of_mapM hargs
        have hall : splitArgs MAX_ARGS line.argument = line.fields := by
          have hdropped := splitArgs_eq MAX_ARGS line.argument
          rw [hdropped, List.length_take] at hcount
          simp only [List.length_cons, List.length_nil, MAX_ARGS] at hcount hlong
          rcases Fields.dropEmptyLast_cases line.fields with he | he
          · rw [hdropped]
            change (Fields.dropEmptyLast line.fields).take MAX_ARGS = line.fields
            rw [he]
            exact List.take_of_length_le (Nat.not_lt.mp hlong)
          · have hlen := congrArg List.length he
            rw [List.length_append, List.length_singleton] at hlen
            change 5 = min 5 (Fields.dropEmptyLast line.fields).length at hcount
            omega
        rw [hall] at hargs
        exact hargs
  | _ => trivial

/-! ## Where a command goes -/

section
variable (w : World σ) {line : Text}

theorem ne_nil_of_starts {name : Text} (h : startsWithIgnoreCase (workingLine line) name = true) (hname : name ≠ []) :
    workingLine line ≠ [] := by
  intro he
  rw [he] at h
  cases name with
  | nil => exact hname rfl
  | cons ch name => simp [startsWithIgnoreCase] at h

theorem processCommand_startScan (hs : startsWithIgnoreCase (workingLine line) (ascii "AT+STARTSCAN=") = true) :
    processCommand ops tx w line =
      (.none, processStartScan ops tx w ((workingLine line).drop (ascii "AT+STARTSCAN=").length)) := by
  have hne := ne_nil_of_starts hs (by decide)
  have hat := not_equals (ascii "AT") hs (by decide)
  unfold workingLine at *
  simp only [processCommand, hat, hs, if_neg hne, Bool.false_eq_true, if_false, if_true]

theorem processCommand_startCon (hs : startsWithIgnoreCase (workingLine line) (ascii "AT+STARTCON=") = true) :
    processCommand ops tx w line =
      (.none, processStartCon ops tx w ((workingLine line).drop (ascii "AT+STARTCON=").length)) := by
  have hne := ne_nil_of_starts hs (by decide)
  have hat := not_equals (ascii "AT") hs (by decide)
  have hscan := not_startsWith (ascii "AT+STARTSCAN=") hs (by decide)
  unfold workingLine at *
  simp only [processCommand, hat, hscan, hs, if_neg hne, Bool.false_eq_true, if_false, if_true]

theorem processCommand_setSvcUuid (hs : startsWithIgnoreCase (workingLine line) (ascii "AT+SETSVCUUID=") = true) :
    processCommand ops tx w line =
      (.none, processSetSvcUuid ops tx w ((workingLine line).drop (ascii "AT+SETSVCUUID=").length)) := by
  have hne := ne_nil_of_starts hs (by decide)
  have hat := not_equals (ascii "AT") hs (by decide)
  have hscan := not_startsWith (ascii "AT+STARTSCAN=") hs (by decide)
  have hcon := not_startsWith (ascii "AT+STARTCON=") hs (by decide)
  have hdiscon := not_startsWith (ascii "AT+DISCON=") hs (by decide)
  have hsend := not_startsWith (ascii "AT+SEND=") hs (by decide)
  have hstatus := not_equals (ascii "AT+CONSTATUS") hs (by decide)
  unfold workingLine at *
  simp only [processCommand, hat, hscan, hcon, hdiscon, hsend, hstatus, hs, if_neg hne, Bool.false_eq_true, if_false,
    if_true]

theorem processCommand_conParaReq (hs : startsWithIgnoreCase (workingLine line) (ascii "AT+CONPARAREQ=") = true) :
    processCommand ops tx w line =
      (.none, processConParaReq ops tx w ((workingLine line).drop (ascii "AT+CONPARAREQ=").length)) := by
  have hne := ne_nil_of_starts hs (by decide)
  have hat := not_equals (ascii "AT") hs (by decide)
  have hscan := not_startsWith (ascii "AT+STARTSCAN=") hs (by decide)
  have hcon := not_startsWith (ascii "AT+STARTCON=") hs (by decide)
  have hdiscon := not_startsWith (ascii "AT+DISCON=") hs (by decide)
  have hsend := not_startsWith (ascii "AT+SEND=") hs (by decide)
  have hstatus := not_equals (ascii "AT+CONSTATUS") hs (by decide)
  have hset := not_startsWith (ascii "AT+SETSVCUUID=") hs (by decide)
  have hget := not_equals (ascii "AT+GETSVCUUID") hs (by decide)
  have hsetMtu := not_startsWith (ascii "AT+SETMTU=") hs (by decide)
  have hgetMtu := not_equals (ascii "AT+GETMTU") hs (by decide)
  have hmtuReq := not_startsWith (ascii "AT+CONMTUREQ=") hs (by decide)
  unfold workingLine at *
  simp only [processCommand, hat, hscan, hcon, hdiscon, hsend, hstatus, hset, hget, hsetMtu, hgetMtu, hmtuReq, hs,
    if_neg hne, Bool.false_eq_true, if_false, if_true]

end

theorem called_mem {w : World σ} (call : Call) (r : Int × σ) :
    call ∈ callsSince w (respond tx (w.called call r).2 r.1) := by
  unfold respond
  have hcalls : ∀ text, callsSince w (txLine tx (w.called call r).2 text) = [call, .line text] :=
    fun text => callsSince_eq rfl
  split
  · rw [emitErrorFromErrno, emitError, hcalls]
    exact List.mem_cons_self
  · rw [hcalls]
    exact List.mem_cons_self

/-! ## Letter case and whitespace -/

theorem startsWithIgnoreCase_congr {text text' : Text} (h : text.map toUpper = text'.map toUpper) (name : Text) :
    startsWithIgnoreCase text name = startsWithIgnoreCase text' name := by
  rw [startsWithIgnoreCase, startsWithIgnoreCase, List.map_take, List.map_take, h]

theorem equalsIgnoreCase_congr {text text' : Text} (h : text.map toUpper = text'.map toUpper) (name : Text) :
    equalsIgnoreCase text name = equalsIgnoreCase text' name := by
  rw [equalsIgnoreCase, equalsIgnoreCase, h]

theorem CommandLine.SameCommand.upper {line line' : CommandLine} (h : line'.SameCommand line) :
    line'.trimmed.map toUpper = line.trimmed.map toUpper := by
  have hsplit : ∀ l : CommandLine, l.trimmed = l.name ++ l.trimmed.dropWhile (· ≠ 61) :=
    fun l => List.takeWhile_append_dropWhile.symm
  rw [hsplit line', hsplit line, List.map_append, List.map_append, h.1, h.2]

theorem processCommand_same (w : World σ) {line line' : CommandLine} (h : line'.SameCommand line) :
    processCommand ops tx w line'.text = processCommand ops tx w line.text := by
  have hupper := h.upper
  have hstarts := startsWithIgnoreCase_congr hupper
  have hequals := equalsIgnoreCase_congr hupper
  have hnil : line'.trimmed = [] ↔ line.trimmed = [] := by
    have hlen := congrArg List.length hupper
    rw [List.length_map, List.length_map] at hlen
    rw [← List.length_eq_zero_iff, ← List.length_eq_zero_iff, hlen]
  have hdrop : ∀ {name : Text}, TakesArguments name → startsWithIgnoreCase line.trimmed name = true →
      line'.trimmed.drop name.length = line.trimmed.drop name.length := by
    intro name hname hs
    rw [drop_length hname hs, drop_length hname ((hstarts _).trans hs), h.2]
  have hcut : ∀ l : CommandLine, trimWhitespace (snprintk LINE_BUFFER_SIZE l.text) = l.trimmed := fun l => l.workingLine_eq
  simp only [processCommand, hcut, hstarts, hequals, hnil]
  refine ite_congr rfl (fun _ => rfl) fun _ => ?_
  refine ite_congr rfl (fun _ => rfl) fun _ => ?_
  refine ite_congr rfl (fun hs => by rw [hdrop (by decide) hs]) fun _ => ?_
  refine ite_congr rfl (fun hs => by rw [hdrop (by decide) hs]) fun _ => ?_
  refine ite_congr rfl (fun hs => by rw [hdrop (by decide) hs]) fun _ => ?_
  refine ite_congr rfl (fun hs => by rw [hdrop (by decide) hs]) fun _ => ?_
  refine ite_congr rfl (fun _ => rfl) fun _ => ?_
  refine ite_congr rfl (fun hs => by rw [hdrop (by decide) hs]) fun _ => ?_
  refine ite_congr rfl (fun _ => rfl) fun _ => ?_
  refine ite_congr rfl (fun hs => by rw [hdrop (by decide) hs]) fun _ => ?_
  refine ite_congr rfl (fun _ => rfl) fun _ => ?_
  refine ite_congr rfl (fun hs => by rw [hdrop (by decide) hs]) fun _ => ?_
  refine ite_congr rfl (fun hs => by rw [hdrop (by decide) hs]) fun _ => ?_
  refine ite_congr rfl (fun hs => by rw [hdrop (by decide) hs]) fun _ => ?_
  rfl

/-! ## Result -/

theorem sendArgs_eq_some {payload : Text} {connIndex length : Nat} (h : sendArgs payload = some (connIndex, length)) :
    ∃ indexText lengthText, splitArgs MAX_ARGS payload = [indexText, lengthText] ∧
      parseUint16Value indexText = some connIndex ∧ parseUint16Value lengthText = some length ∧
      connIndex ≤ 255 ∧ 0 < length ∧ length ≤ BLE_HOST_SEND_MAX_LEN := by
  unfold sendArgs at h
  split at h
  · rename_i indexText lengthText hargs
    split at h
    · rename_i index len hindex hlen
      split at h
      · cases h
      · rename_i hgood
        cases h
        simp only [not_or, Nat.not_lt] at hgood
        exact ⟨indexText, lengthText, hargs, hindex, hlen, hgood.1, Nat.pos_of_ne_zero hgood.2.1, hgood.2.2⟩
    · cases h
  · cases h

theorem callsSince_self (w : World σ) : callsSince w w = [] := callsSince_eq rfl

theorem documented_line {fields : List Text} {lines : List Text} {call : Call} (h : call ∈ lines.map .line) :
    Documented fields call := by
  obtain ⟨text, _, rfl⟩ := List.mem_map.mp h
  trivial

theorem Reply.documented {line : CommandLine} (hover : ¬Overfull line) {calls : List Call}
    (h : Reply (Asked line.trimmed) calls) {call : Call} (hc : call ∈ calls) : Documented line.fields call := by
  cases h with
  | alone _ => exact documented_line hc
  | after hasked _ _ =>
      rcases List.mem_cons.mp hc with rfl | hline
      · exact documented_of_asked hover hasked
      · exact documented_line hline

theorem grammarExact_of_not_overfull (w : World σ) {line : CommandLine} (hover : ¬Overfull line) :
    GrammarExact ops tx w line := by
  have hline := line.workingLine_eq
  have hsame : ∀ line' : CommandLine, line'.SameCommand line → _ := fun line' h => processCommand_same ops tx w h
  cases hreq : sendRequest line.text with
  | none =>
      by_cases hblank : line.trimmed = []
      · have hnothing := processCommand_blank ops tx w (hline.trans hblank)
        refine ⟨?_, ?_, hsame⟩
        · rw [hnothing, callsSince_self]
          exact fun call hc => by cases hc
        · rw [hnothing]
          exact fun h => by cases h
      · have hne : workingLine line.text ≠ [] := hline ▸ hblank
        obtain ⟨hnone, calls, hmade, hreply⟩ := processCommand_answered ops tx w hreq hne
        rw [hline] at hreply
        refine ⟨?_, ?_, hsame⟩
        · rw [hmade.callsSince]
          exact fun call hc => hreply.documented hover hc
        · rw [hnone]
          exact fun h => by cases h
  | some request =>
      obtain ⟨connIndex, length⟩ := request
      have hopened := processCommand_some ops tx w hreq
      have hargs : startsWithIgnoreCase line.trimmed (ascii "AT+SEND=") ∧
          sendArgs (line.trimmed.drop (ascii "AT+SEND=").length) = some (connIndex, length) := by
        simp only [sendRequest] at hreq
        change (if startsWithIgnoreCase (workingLine line.text) (ascii "AT+SEND=") = true then
          sendArgs ((workingLine line.text).drop _) else none) = _ at hreq
        rw [hline] at hreq
        split at hreq
        · exact ⟨‹_›, hreq⟩
        · cases hreq
      obtain ⟨hs, hargs⟩ := hargs
      obtain ⟨indexText, lengthText, hsplit, hindex, hlength, hc, hpos, hle⟩ := sendArgs_eq_some hargs
      rw [CommandLine.drop_eq_argument (by decide) hs] at hsplit
      refine ⟨?_, ?_, hsame⟩
      · have hcalls : callsSince w (processCommand ops tx w line.text).2 = [.raw (ascii ">")] := by
          rw [hopened]
          exact callsSince_eq rfl
        rw [hcalls]
        intro call hmem
        rw [List.mem_singleton.mp hmem]
        trivial
      · intro _
        rw [hopened]
        rcases fields_of_splitArgs hsplit (by simp [MAX_ARGS]) with hf | hf
        · exact ⟨indexText, lengthText, hf, hindex, hlength⟩
        · exact absurd (.send hs hf hindex hlength hc hpos hle) hover

/-! What an overfull line calls. -/

theorem processStartScan_called (w : World σ) {payload duration : Text} {rest : List Text} {durationS : Nat}
    (hargs : splitArgs MAX_ARGS payload = duration :: rest) (hp : parseUint16Value duration = some durationS)
    (hne : durationS ≠ 0) :
    .startScan durationS (filterOf rest) ∈ callsSince w (processStartScan ops tx w payload) := by
  obtain ⟨n, rfl⟩ := Nat.exists_eq_succ_of_ne_zero hne
  unfold processStartScan
  rw [hargs]
  dsimp only
  rw [hp]
  exact called_mem tx (.startScan (n + 1) (filterOf rest)) (ops.startScan w.ctx (n + 1) (filterOf rest))

theorem processStartCon_called (w : World σ) {payload mac typeText : Text} {addrType : Nat}
    (hargs : splitArgs MAX_ARGS payload = [mac, typeText]) (hp : parseUint16Value typeText = some addrType)
    (hle : addrType ≤ 3) : .connect mac addrType ∈ callsSince w (processStartCon ops tx w payload) := by
  unfold processStartCon
  rw [hargs]
  dsimp only
  rw [hp]
  dsimp only
  rw [if_neg (Nat.not_lt.mpr hle)]
  exact called_mem tx (.connect mac addrType) (ops.connect w.ctx mac addrType)

theorem processSetSvcUuid_called (w : World σ) {payload service notify write : Text}
    (hargs : splitArgs MAX_ARGS payload = [service, notify, write]) :
    .setProfile service notify write ∈ callsSince w (processSetSvcUuid ops tx w payload) := by
  unfold processSetSvcUuid
  rw [hargs]
  exact called_mem tx (.setProfile service notify write) (ops.setProfile w.ctx service notify write)

theorem processConParaReq_called (w : World σ) {payload : Text} {connIndex minInterval maxInterval latency timeout : Nat}
    (hargs : (splitArgs MAX_ARGS payload).mapM parseUint16Value =
      some [connIndex, minInterval, maxInterval, latency, timeout]) (hc : connIndex ≤ 255) :
    .setConnParams connIndex minInterval maxInterval latency timeout ∈
      callsSince w (processConParaReq ops tx w payload) := by
  unfold processConParaReq
  rw [hargs]
  dsimp only
  rw [if_neg (Nat.not_lt.mpr hc)]
  exact called_mem tx (.setConnParams connIndex minInterval maxInterval latency timeout)
    (ops.setConnParams w.ctx connIndex minInterval maxInterval latency timeout)

theorem Overfull.not_exact (w : World σ) {line : CommandLine} (hover : Overfull line) : ¬GrammarExact ops tx w line := by
  have hline := line.workingLine_eq
  intro hexact
  have hcalls := hexact.calls
  cases hover with
  | startScan hs hf hp hne =>
      rename_i duration name surplus more durationS
      rw [processCommand_startScan ops tx w (hline ▸ hs), hline, CommandLine.drop_eq_argument (by decide) hs] at hcalls
      have hargs : splitArgs MAX_ARGS line.argument = duration ::
          (Fields.dropEmptyLast (name :: surplus :: more)).take 4 := by
        rw [splitArgs_eq]
        change (Fields.dropEmptyLast line.fields).take 5 = _
        rw [hf, Fields.dropEmptyLast_cons (.inr (List.cons_ne_nil _ _))]
        rfl
      rcases hcalls _ (processStartScan_called ops tx w hargs hp hne) with ⟨_, he, _⟩ | ⟨_, _, he, _⟩
      · rw [hf] at he
        cases he
      · rw [hf] at he
        cases he
  | startCon hs hf hp hle =>
      rename_i mac typeText addrType
      rw [processCommand_startCon ops tx w (hline ▸ hs), hline, CommandLine.drop_eq_argument (by decide) hs] at hcalls
      have hargs : splitArgs MAX_ARGS line.argument = [mac, typeText] := splitArgs_of_fields hf (by simp [MAX_ARGS])
      obtain ⟨_, he, _⟩ := hcalls _ (processStartCon_called ops tx w hargs hp hle)
      rw [hf] at he
      cases he
  | send hs hf hi hl hc hpos hle =>
      rename_i indexText lengthText connIndex length
      have hargs : splitArgs MAX_ARGS line.argument = [indexText, lengthText] :=
        splitArgs_of_fields hf (by simp [MAX_ARGS])
      have hgood : ¬(255 < connIndex ∨ length = 0 ∨ BLE_HOST_SEND_MAX_LEN < length) := by
        rintro (hbig | hzero | hbig)
        · exact Nat.not_lt.mpr hc hbig
        · exact Nat.ne_of_gt hpos hzero
        · exact Nat.not_lt.mpr hle hbig
      have hreq : sendRequest line.text = some (connIndex, length) := by
        simp only [sendRequest]
        change (if startsWithIgnoreCase (workingLine line.text) (ascii "AT+SEND=") = true then
          sendArgs ((workingLine line.text).drop _) else none) = _
        rw [hline, if_pos hs, CommandLine.drop_eq_argument (by decide) hs, sendArgs, hargs]
        dsimp only
        rw [hi, hl]
        exact if_neg hgood
      obtain ⟨_, _, he, _⟩ := hexact.payload (by rw [processCommand_some ops tx w hreq])
      rw [hf] at he
      cases he
  | setSvcUuid hs hf =>
      rename_i service notify write
      rw [processCommand_setSvcUuid ops tx w (hline ▸ hs), hline, CommandLine.drop_eq_argument (by decide) hs] at hcalls
      have hargs : splitArgs MAX_ARGS line.argument = [service, notify, write] :=
        splitArgs_of_fields hf (by simp [MAX_ARGS])
      have he : line.fields = _ := hcalls _ (processSetSvcUuid_called ops tx w hargs)
      rw [hf] at he
      cases he
  | conParaReq hs hlong hp hc =>
      rw [processCommand_conParaReq ops tx w (hline ▸ hs), hline, CommandLine.drop_eq_argument (by decide) hs] at hcalls
      have hargs : splitArgs MAX_ARGS line.argument = line.fields.take 5 := splitArgs_of_more hlong
      rw [← hargs] at hp
      have he := hcalls _ (processConParaReq_called ops tx w hp hc)
      have hlen := length_of_mapM he
      simp only [List.length_cons, List.length_nil] at hlen
      omega

/-- The grammar is exact for every line but the overfull ones. -/
theorem grammarExact_iff (w : World σ) (line : CommandLine) : GrammarExact ops tx w line ↔ ¬Overfull line :=
  ⟨fun h hover => hover.not_exact ops tx w h, grammarExact_of_not_overfull ops tx w⟩

/-- `AT+CONPARAREQ=0,6,9,0,400,7` is carried out, although it has a sixth field. -/
theorem surplus_field_ignored :
    let line : CommandLine := ⟨ascii "AT+CONPARAREQ=0,6,9,0,400,7", by decide⟩
    .setConnParams 0 6 9 0 400 ∈
        callsSince ⟨.init, (), []⟩ (processCommand quietOps quietTx ⟨.init, (), []⟩ line.text).2 ∧
      line.fields.length = 6 ∧ ¬GrammarExact quietOps quietTx ⟨.init, (), []⟩ line := by
  refine ⟨by decide, by decide, Overfull.not_exact _ _ _ ?_⟩
  exact .conParaReq (by decide) (by decide)
    (by decide : _ = some [0, 6, 9, 0, 400]) (by decide)

end BleAtHost.AtHost
