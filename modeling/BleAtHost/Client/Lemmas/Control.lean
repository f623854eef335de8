import BleAtHost.Client.State
import BleAtHost.Client.Lemmas.Text

/-!
# Lines of the control stream

What the client makes of bytes in control mode: it collects them up to a line end and emits what it has if that is not
blank.
-/

namespace BleAtHost.Client

variable {c : Client} {ch : Byte} {text : Text}

/-- The client with a line buffer and further lines. -/
def withLines (c : Client) (buffer : List Byte) (lines : List Str) : Client :=
  { c with lineBuffer := buffer, lineQueue := c.lineQueue ++ lines }

@[simp] theorem withLines_lineBuffer (buffer : List Byte) (lines : List Str) :
    (c.withLines buffer lines).lineBuffer = buffer := rfl

@[simp] theorem withLines_lineQueue (buffer : List Byte) (lines : List Str) :
    (c.withLines buffer lines).lineQueue = c.lineQueue ++ lines := rfl

@[simp] theorem withLines_withLines (buffer buffer' : List Byte) (lines lines' : List Str) :
    (c.withLines buffer lines).withLines buffer' lines' = c.withLines buffer' (lines ++ lines') := by
  simp [withLines]

@[simp] theorem withLines_self : c.withLines c.lineBuffer [] = c := by simp [withLines]

@[simp] theorem processControlBytes_nil (c : Client) : c.processControlBytes [] = c := rfl

theorem processControlBytes_cons (c : Client) (ch : Byte) (bytes : List Byte) :
    c.processControlBytes (ch :: bytes) = (c.processControlByte ch).processControlBytes bytes := List.foldl_cons ..

theorem processControlBytes_append (bytes bytes' : List Byte) :
    c.processControlBytes (bytes ++ bytes') = (c.processControlBytes bytes).processControlBytes bytes' :=
  List.foldl_append

/-! ## One byte -/

theorem processControlByte_keep (hb : c.lineBuffer ≠ [] ∨ ch ≠ 62) (hlf : ch ≠ 10) (hcr : ch ≠ 13) :
    c.processControlByte ch = c.withLines (c.lineBuffer ++ [ch]) [] := by
  have hprompt : ¬(ch = 62 ∧ c.lineBuffer = []) := fun h => hb.elim (fun hne => hne h.2) fun hne => hne h.1
  simp [processControlByte, hprompt, hlf, hcr, withLines]

theorem processControlByte_end (he : ch = 10 ∨ ch = 13) :
    c.processControlByte ch =
      c.withLines [] (if strip (decode (c.lineBuffer ++ [ch])) = [] then [] else [strip (decode (c.lineBuffer ++ [ch]))]) := by
  have hprompt : ¬(ch = 62 ∧ c.lineBuffer = []) := by
    rintro ⟨rfl, -⟩
    rcases he with he | he
    · cases he
    · cases he
  have hend : ¬(ch ≠ 10 ∧ ch ≠ 13) := fun h => he.elim h.1 h.2
  simp only [processControlByte, hprompt, hend, if_false]
  split
  · simp [withLines]
  · simp [withLines, emitEvent]

/-- The second of two line ends. -/
theorem processControlByte_lineFeed (hb : c.lineBuffer = []) : c.processControlByte 10 = c := by
  have hblank : strip (decode ([] ++ [10])) = [] := by decide
  rw [processControlByte_end (.inl rfl), hb, if_pos hblank, ← hb, withLines_self]

/-- It changes the line buffer and adds lines, nothing else. -/
theorem processControlByte_withLines (c : Client) (ch : Byte) :
    ∃ buffer lines, c.processControlByte ch = c.withLines buffer lines := by
  by_cases he : ch = 10 ∨ ch = 13
  · exact ⟨_, _, processControlByte_end he⟩
  · obtain ⟨hlf, hcr⟩ := not_or.mp he
    by_cases hb : c.lineBuffer ≠ [] ∨ ch ≠ 62
    · exact ⟨_, _, processControlByte_keep hb hlf hcr⟩
    · simp only [not_or, not_not] at hb
      refine ⟨c.lineBuffer, [str ">"], ?_⟩
      rw [processControlByte, if_pos ⟨hb.2, hb.1⟩]
      rfl

theorem processControlBytes_withLines (c : Client) (bytes : List Byte) :
    ∃ buffer lines, c.processControlBytes bytes = c.withLines buffer lines := by
  induction bytes generalizing c with
  | nil => exact ⟨c.lineBuffer, [], withLines_self.symm⟩
  | cons ch bytes ih =>
      obtain ⟨buffer, lines, hfirst⟩ := processControlByte_withLines c ch
      obtain ⟨buffer', lines', hrest⟩ := ih (c.withLines buffer lines)
      refine ⟨buffer', lines ++ lines', ?_⟩
      rw [processControlBytes_cons, hfirst, hrest, withLines_withLines]

/-- It looks neither at the input nor at the reader. -/
theorem processControlByte_frame (c : Client) (ch : Byte) (input : List Byte) (reader : Reader) :
    ({ c with input := input, reader := reader } : Client).processControlByte ch =
      { c.processControlByte ch with input := input, reader := reader } := by
  simp only [processControlByte, emitEvent]
  split
  · rfl
  · split
    · rfl
    · split
      · rfl
      · rfl

theorem processControlBytes_frame (c : Client) (bytes input : List Byte) (reader : Reader) :
    ({ c with input := input, reader := reader } : Client).processControlBytes bytes =
      { c.processControlBytes bytes with input := input, reader := reader } := by
  induction bytes generalizing c with
  | nil => rfl
  | cons ch bytes ih => rw [processControlBytes_cons, processControlByte_frame, ih, processControlBytes_cons]

theorem lineQueue_processControlBytes (c : Client) (bytes : List Byte) :
    c.lineQueue <+: (c.processControlBytes bytes).lineQueue := by
  obtain ⟨buffer, lines, he⟩ := processControlBytes_withLines c bytes
  rw [he]
  exact List.prefix_append _ _

/-! ## Text without line ends -/

theorem processControlBytes_keep (hb : c.lineBuffer ≠ [] ∨ text.head? ≠ some 62) (hlf : 10 ∉ text) (hcr : 13 ∉ text) :
    c.processControlBytes text = c.withLines (c.lineBuffer ++ text) [] := by
  induction text generalizing c with
  | nil => simp
  | cons ch text ih =>
      obtain ⟨hlf', hlfs⟩ := not_or.mp (mt List.mem_cons.mpr hlf)
      obtain ⟨hcr', hcrs⟩ := not_or.mp (mt List.mem_cons.mpr hcr)
      have hb' : c.lineBuffer ≠ [] ∨ ch ≠ 62 := hb.imp_right fun h he => h (by simp [he])
      have hnext : (c.withLines (c.lineBuffer ++ [ch]) []).lineBuffer ≠ [] := by simp
      have hrest := ih (.inl hnext) hlfs hcrs
      rw [← processControlByte_keep hb' (Ne.symm hlf') (Ne.symm hcr')] at hrest
      rw [processControlBytes_cons, hrest, processControlByte_keep hb' (Ne.symm hlf') (Ne.symm hcr')]
      simp

/-- A line that neither begins nor ends with a space arrives as it is. -/
theorem processControlBytes_line {first last : Char} {middle : Str} (hb : c.lineBuffer = [])
    (hhead : text.head? ≠ some 62) (hlf : 10 ∉ text) (hcr : 13 ∉ text)
    (htext : decode text = first :: (middle ++ [last])) (hfirst : isSpaceChar first = false)
    (hlast : isSpaceChar last = false) :
    c.processControlBytes (text ++ [13, 10]) = c.withLines [] [first :: (middle ++ [last])] := by
  have hcr' : ∀ ch ∈ ['\r'], isSpaceChar ch = true := by
    intro ch hch
    rw [List.mem_singleton.mp hch]
    decide
  have hline : strip (decode (text ++ [13])) = first :: (middle ++ [last]) := by
    have hdecode : decode (text ++ [13]) = first :: (middle ++ last :: ['\r']) := by
      rw [decode_append_ascii text (by decide), htext]
      simp [decode, decodeFrom, charOf]
    rw [hdecode]
    exact stripBy_eq hfirst hlast hcr'
  have hkeep := processControlBytes_keep (.inr hhead) hlf hcr (c := c)
  rw [hb, List.nil_append] at hkeep
  have hend : (c.withLines text []).processControlByte 13 = c.withLines [] [first :: (middle ++ [last])] := by
    rw [processControlByte_end (.inr rfl), withLines_lineBuffer, hline]
    simp
  rw [processControlBytes_append, hkeep, processControlBytes_cons, hend, processControlBytes_cons,
    processControlByte_lineFeed rfl, processControlBytes_nil]

/-- A line end behind something that is no space makes a line. -/
theorem processControlByte_emits {b : Byte} (he : ch = 10 ∨ ch = 13) (hmem : b ∈ c.lineBuffer) (hb : b < 0x80)
    (hspace : isSpaceChar (charOf b) = false) :
    ∃ line, c.processControlByte ch = c.withLines [] [line] := by
  have hline : strip (decode (c.lineBuffer ++ [ch])) ≠ [] :=
    stripBy_ne_nil (mem_decode_of_mem hb (List.mem_append_left _ hmem)) hspace
  refine ⟨strip (decode (c.lineBuffer ++ [ch])), ?_⟩
  rw [processControlByte_end he, if_neg hline]

end BleAtHost.Client
