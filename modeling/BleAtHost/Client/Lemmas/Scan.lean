import BleAtHost.Client.System

/-!
# The loop of `scan`

If no wait runs out of time, the loop of `scan` does with the queue of lines what `gather` does with a list.
-/

namespace BleAtHost.Client

variable {α : Type} {c : Client}

/-! ## Turns of the main thread -/

def mainTurn (p : Client × Program α) (w : Choice) : Client × Program α := Prog.turn (perform w) p.1 p.2

def turns (p : Client × Program α) (ws : List Choice) : Client × Program α := Runs.run mainTurn p ws

/-- Less time than `timeout` passes from any of these moments to any other. -/
def InTime (timeout : Int) (ws : List Choice) : Prop := ∀ w ∈ ws, ∀ w' ∈ ws, w'.now < w.now + timeout

def outcome : Except PyError α → Program α
  | .ok a => .pure a
  | .error e => .raise e

theorem turns_outcome (c : Client) (r : Except PyError α) (ws : List Choice) :
    turns (c, outcome r) ws = (c, outcome r) := by
  induction ws with
  | nil => rfl
  | cons w ws ih =>
      cases r with
      | ok a => exact ih
      | error e => exact ih

/-! ## Waiting for a line -/

/-- The body of the loop of `_read_until`. -/
def awaitBody (deadline : Int) (predicate : Str → Bool) (_ : Unit) : Program (Unit ⊕ Str) := do
  let now ← ask .monotonic
  let remaining : Int := deadline - now
  if remaining ≤ 0 then .raise .timeoutError
  else
    match ← ask (.getLine remaining) with
    | none => .raise .timeoutError
    | some line => if predicate line then pure (.inr line) else pure (.inl ())

/-- In the loop of `_read_until`; `next` comes after it. -/
def awaiting (deadline : Int) (predicate : Str → Bool) (next : Str → Program α) : Program α :=
  .loop (awaitBody deadline predicate) () next

theorem turn_readUntil (w : Choice) (c : Client) (predicate : Str → Bool) (timeout : Int) (next : Str → Program α) :
    Prog.turn (perform w) c (readUntil predicate timeout >>= next) =
      (c, awaiting (w.now + timeout) predicate next) := rfl

/-- The clock is read and the queue gives a line. -/
theorem mainTurn_awaitBody {line : Str} {rest : List Str} (hq : c.lineQueue = line :: rest) {deadline : Int}
    {predicate : Str → Bool} {leave : Unit ⊕ Str → Program α} {w w' : Choice} (hnow : w.now < deadline) :
    mainTurn (mainTurn (c, Prog.bind (awaitBody deadline predicate ()) leave) w) w' =
      ({ c with lineQueue := rest }, leave (if predicate line then .inr line else .inl ())) := by
  have hremaining : ¬deadline - w.now ≤ 0 := by omega
  simp only [mainTurn, awaitBody, bind, Prog.bind, ask, Prog.ask, Prog.turn, perform, if_neg hremaining, getFrom, hq,
    Option.map_some]
  split
  · rfl
  · rfl

theorem turns_awaiting {line : Str} {rest : List Str} (hq : c.lineQueue = line :: rest) {deadline : Int}
    {predicate : Str → Bool} {next : Str → Program α} {w w' w'' : Choice} (hnow : w'.now < deadline)
    (ws : List Choice) :
    turns (c, awaiting deadline predicate next) (w :: w' :: w'' :: ws) =
      turns ({ c with lineQueue := rest }, if predicate line then next line else awaiting deadline predicate next) ws := by
  have hloop : mainTurn (c, awaiting deadline predicate next) w = _ := Prog.turn_loop _ _ _ _ _
  rw [turns, Runs.run_cons, hloop, Runs.run_cons, Runs.run_cons, mainTurn_awaitBody hq hnow]
  cases predicate line with
  | true => rfl
  | false => rfl

/-! ## The loop -/

def scanWanted (item : Str) : Bool := startsWith item (str "+IND=SCDA") || item == str "+IND=SCED"

/-- The body of the loop of `scan` behind `_read_until`. -/
def scanLine (found : List ScanResult × List Str) (line : Str) :
    Program ((List ScanResult × List Str) ⊕ List ScanResult) :=
  if line = str "+IND=SCED" then pure (.inr found.1)
  else if line ∈ found.2 then pure (.inl found)
  else
    match parseScanResult line with
    | some result => pure (.inl (found.1 ++ [result], line :: found.2))
    | none => .raise .valueError

def scanBody (timeout : Int) (found : List ScanResult × List Str) :
    Program ((List ScanResult × List Str) ⊕ List ScanResult) :=
  readUntil scanWanted timeout >>= scanLine found

/-- `scan` after its command has been answered. -/
def scanResults (timeout : Int) (found : List ScanResult × List Str) : Program (List ScanResult) :=
  Prog.forever found (scanBody timeout)

theorem scan_eq (durationS : Int) (pre : Str) (timeout : Int) :
    scan durationS pre timeout = (do
      writeLine (str "AT+STARTSCAN=" ++ ofInt durationS ++ if pre = [] then [] else str "," ++ pre)
      waitOk timeout
      scanResults timeout ([], [])) := rfl

/-- The loop over a list of lines, as long as there is one. -/
def gather : List Str → List ScanResult × List Str → Option (Except PyError (List ScanResult))
  | [], _ => none
  | line :: lines, (results, seen) =>
      if !scanWanted line then gather lines (results, seen)
      else if line = str "+IND=SCED" then some (.ok results)
      else if line ∈ seen then gather lines (results, seen)
      else
        match parseScanResult line with
        | some result => gather lines (results ++ [result], line :: seen)
        | none => some (.error .valueError)

/-- After a line. -/
def scanNext (timeout : Int) (found : List ScanResult × List Str) (line : Str) : Program (List ScanResult) :=
  if line = str "+IND=SCED" then .pure found.1
  else if line ∈ found.2 then scanResults timeout found
  else
    match parseScanResult line with
    | some result => scanResults timeout (found.1 ++ [result], line :: found.2)
    | none => .raise .valueError

theorem scanNext_eq (timeout : Int) (found : List ScanResult × List Str) (line : Str) :
    (scanLine found line).bind (Prog.again (scanBody timeout) .pure) = scanNext timeout found line := by
  simp only [scanLine, scanNext]
  split
  · rfl
  · split
    · rfl
    · cases parseScanResult line with
      | none => rfl
      | some result => rfl

theorem turns_scanResults (w w' : Choice) (ws : List Choice) (timeout : Int) (found : List ScanResult × List Str) :
    turns (c, scanResults timeout found) (w :: w' :: ws) =
      turns (c, awaiting (w'.now + timeout) scanWanted (scanNext timeout found)) ws := by
  have hbody : (scanBody timeout found).bind (Prog.again (scanBody timeout) .pure) =
      readUntil scanWanted timeout >>= scanNext timeout found := by
    rw [← funext (scanNext_eq timeout found)]
    rfl
  have hloop : mainTurn (c, scanResults timeout found) w = _ := Prog.turn_loop _ _ _ _ _
  have hread : mainTurn (c, readUntil scanWanted timeout >>= scanNext timeout found) w' = _ := turn_readUntil _ _ _ _ _
  rw [turns, Runs.run_cons, hloop, hbody, Runs.run_cons, hread]
  rfl

/-- Every line takes at most five turns. -/
theorem turns_awaiting_gather {timeout : Int} {lines : List Str} {found : List ScanResult × List Str}
    {r : Except PyError (List ScanResult)} (h : gather lines found = some r) {ws : List Choice} {deadline : Int}
    (hq : c.lineQueue = lines) (hlen : 5 * lines.length ≤ ws.length) (hdeadline : ∀ w ∈ ws, w.now < deadline)
    (htime : InTime timeout ws) :
    (turns (c, awaiting deadline scanWanted (scanNext timeout found)) ws).2 = outcome r := by
  induction lines generalizing c found ws deadline with
  | nil => cases h
  | cons line lines ih =>
      match ws with
      | [] | [_] | [_, _] | [_, _, _] | [_, _, _, _] =>
          simp only [List.length_cons, List.length_nil] at hlen
          omega
      | w :: w' :: w'' :: v :: v' :: ws =>
          have hws : 5 * lines.length ≤ ws.length := by
            simp only [List.length_cons] at hlen
            omega
          have hmem : ∀ u ∈ ws, u ∈ w :: w' :: w'' :: v :: v' :: ws := fun u hu => by simp [hu]
          have htime' : InTime timeout ws := fun u hu u' hu' => htime u (hmem u hu) u' (hmem u' hu')
          have hv : ∀ u ∈ ws, u.now < v'.now + timeout := fun u hu => htime v' (by simp) u (hmem u hu)
          -- the loop goes on with other results
          have hagain : ∀ found', gather lines found' = some r →
              (turns ({ c with lineQueue := lines }, scanResults timeout found') (v :: v' :: ws)).2 = outcome r := by
            intro found' hg
            rw [turns_scanResults]
            exact ih hg rfl hws hv htime'
          rw [turns_awaiting hq (hdeadline w' (by simp))]
          simp only [gather] at h
          split at h
          · rename_i hnot
            rw [if_neg (by simpa using hnot)]
            refine ih h rfl (by simp only [List.length_cons]; omega) (fun u hu => hdeadline u (by simp at hu; simp [hu])) ?_
            exact fun u hu u' hu' => htime u (by simp at hu; simp [hu]) u' (by simp at hu'; simp [hu'])
          · rename_i hwanted
            rw [if_pos (by simpa using hwanted)]
            unfold scanNext
            split at h
            · cases h
              rw [if_pos ‹_›]
              exact congrArg Prod.snd (turns_outcome _ (.ok found.1) _)
            · rw [if_neg ‹_›]
              split at h
              · rw [if_pos ‹_›]
                exact hagain found h
              · rw [if_neg ‹_›]
                cases hparse : parseScanResult line with
                | some result =>
                    rw [hparse] at h
                    exact hagain _ h
                | none =>
                    rw [hparse] at h
                    cases h
                    exact congrArg Prod.snd (turns_outcome _ (.error .valueError) _)

theorem turns_gather {timeout : Int} {found : List ScanResult × List Str} {r : Except PyError (List ScanResult)}
    (h : gather c.lineQueue found = some r) {ws : List Choice} (hlen : 5 * c.lineQueue.length + 2 ≤ ws.length)
    (htime : InTime timeout ws) : (turns (c, scanResults timeout found) ws).2 = outcome r := by
  match ws with
  | [] | [_] => simp at hlen
  | w :: w' :: ws =>
      have hws : 5 * c.lineQueue.length ≤ ws.length := by
        simp only [List.length_cons] at hlen
        omega
      rw [turns_scanResults]
      refine turns_awaiting_gather h rfl hws (fun u hu => htime w' (by simp) u (by simp [hu])) ?_
      exact fun u hu u' hu' => htime u (by simp [hu]) u' (by simp [hu'])

end BleAtHost.Client
