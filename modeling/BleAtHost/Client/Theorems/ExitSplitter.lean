import BleAtHost.Client.Lemmas.Reader

/-!
# Leaving data mode in the middle of a stream

While an exit is pending the client passes the stream on as data up to the exit event, and what stands behind the
event belongs to the control stream. Where the stream is cut does not matter.
-/

namespace BleAtHost.Client

/-- `_handle_exit_pending_chunk` as one call. -/
def handleChunk (c : Client) (chunk : List Byte) : Client :=
  (handleExitPendingChunk c.exitBuffer chunk).1.foldl act
    { c with exitBuffer := (handleExitPendingChunk c.exitBuffer chunk).2 }

/-- One chunk after the other as long as the exit is pending, and the chunks that are left. -/
def handleChunks (c : Client) : List (List Byte) → Client × List (List Byte)
  | [] => (c, [])
  | chunk :: chunks => if c.exitPending then (c.handleChunk chunk).handleChunks chunks else (c, chunk :: chunks)

/-- The client after these pieces of data, with something held back. -/
def passedOn (c : Client) (pieces : List (List Byte)) (held : List Byte) : Client :=
  { c with dataQueue := c.dataQueue ++ pieces, exitBuffer := held }

/-- The client after these pieces of data, the exit event and what stands behind it. -/
def left (c : Client) (pieces : List (List Byte)) (rest : List Byte) : Client :=
  ({ c with
      dataQueue := c.dataQueue ++ pieces
      exitBuffer := []
      exitPending := false
      dataMode := false }.emitEvent (str "+IND=DATAMODE,0")).processControlBytes rest

variable {c : Client} {pieces : List (List Byte)} {held chunk stream : List Byte}

/-! ## One chunk -/

theorem act_data (hne : [] ∉ pieces) :
    (pieces.map Effect.data).foldl act c = { c with dataQueue := c.dataQueue ++ pieces } := by
  induction pieces generalizing c with
  | nil => simp
  | cons piece pieces ih =>
      obtain ⟨hpiece, hpieces⟩ := not_or.mp (mt List.mem_cons.mpr hne)
      have hfirst : c.act (.data piece) = { c with dataQueue := c.dataQueue ++ [piece] } := if_neg (Ne.symm hpiece)
      rw [List.map_cons, List.foldl_cons, hfirst, ih hpieces, List.append_assoc]
      rfl

theorem act_exitEffects (hne : [] ∉ pieces) (rest : List Byte) :
    (pieces.map Effect.data ++ exitEffects rest).foldl act { c with exitBuffer := [] } = c.left pieces rest := by
  have hline : strip (decode EXIT_EVENT) = str "+IND=DATAMODE,0" := by decide
  rw [List.foldl_append, act_data hne, exitEffects, hline, List.foldl_append, List.foldl_map]
  rfl

/-- The steps of the reader for one chunk make up the call. -/
theorem readerStep_handleChunk (hgot : c.reader = .got chunk) (hpending : c.exitPending = true) (n : Nat) :
    ∃ steps, (fun c : Client => c.readerStep n)^[steps] c = { c.handleChunk chunk with reader := .top } := by
  refine ⟨(handleExitPendingChunk c.exitBuffer chunk).1.length + 1 + 1, ?_⟩
  have hfirst : c.readerStep n =
      { ({ c with exitBuffer := (handleExitPendingChunk c.exitBuffer chunk).2 } : Client) with
        reader := .busy (handleExitPendingChunk c.exitBuffer chunk).1 } := by
    simp [readerStep, hgot, hpending]
  rw [Function.iterate_succ_apply, hfirst, iterate_busy]
  rfl

/-- A chunk that does not complete the event. -/
theorem handleChunk_waits (hbytes : pieces.flatten ++ held = stream) (hheld : Splitter.Held EXIT_EVENT stream held)
    (hnext : ¬EXIT_EVENT <:+: stream ++ chunk) :
    ∃ pieces' held', (c.passedOn pieces held).handleChunk chunk = c.passedOn pieces' held' ∧
      pieces'.flatten ++ held' = stream ++ chunk ∧ Splitter.Held EXIT_EVENT (stream ++ chunk) held' := by
  have hsmall : ¬EXIT_EVENT <:+: held ++ chunk := by
    rw [← hbytes, List.append_assoc] at hnext
    exact fun hi => hnext (hi.trans (List.suffix_append _ _).isInfix)
  obtain ⟨hrest, new, heffects, hne, hnew⟩ := (returns_handleExitPendingChunk held chunk).none hsmall
  refine ⟨pieces ++ new, heldBack (held ++ chunk), ?_, ?_, hheld.append (held_heldBack _)⟩
  · have hcall : (c.passedOn pieces held).handleChunk chunk =
        (new.map Effect.data).foldl act (c.passedOn pieces (heldBack (held ++ chunk))) := by
      rw [← heffects, ← hrest]
      rfl
    rw [hcall, act_data hne, passedOn, passedOn, List.append_assoc]
  · rw [List.flatten_append, List.append_assoc, ← hrest, hnew, ← List.append_assoc, hbytes]

/-- The chunk that completes it. -/
theorem handleChunk_leaves (hbytes : pieces.flatten ++ held = stream) (hheld : Splitter.Held EXIT_EVENT stream held)
    (hn : ¬EXIT_EVENT <:+: stream) (hnext : EXIT_EVENT <:+: stream ++ chunk) :
    ∃ pieces' rest, (c.passedOn pieces held).handleChunk chunk = c.left pieces' rest ∧
      stream ++ chunk = pieces'.flatten ++ EXIT_EVENT ++ rest ∧
      Splitter.First EXIT_EVENT (stream ++ chunk) pieces'.flatten ∧ rest <:+ chunk := by
  obtain ⟨hrest, new, rest, heffects, hne, hnew, hfirst⟩ :=
    (returns_handleExitPendingChunk held chunk).some (hheld.straddle hn hnext)
  have hall : stream ++ chunk = (pieces ++ new).flatten ++ EXIT_EVENT ++ rest := by
    rw [← hbytes, List.append_assoc, hnew, List.flatten_append]
    simp only [List.append_assoc]
  refine ⟨pieces ++ new, rest, ?_, hall, ?_, ?_⟩
  · have hcall : (c.passedOn pieces held).handleChunk chunk =
        (new.map Effect.data ++ exitEffects rest).foldl act
          { ({ c with dataQueue := c.dataQueue ++ pieces } : Client) with exitBuffer := [] } := by
      rw [← heffects, ← hrest]
      rfl
    rw [hcall, act_exitEffects hne, left, left, List.append_assoc]
  · subst hbytes
    rw [List.flatten_append]
    exact hheld.first hn hfirst
  · -- the chunks before hold no event
    have hend : rest <:+ stream ++ chunk := hall ▸ List.suffix_append _ _
    rcases List.suffix_or_suffix_of_suffix hend (List.suffix_append stream chunk) with hs | hs
    · exact hs
    · obtain ⟨more, rfl⟩ := hs
      rw [← List.append_assoc, List.append_left_inj] at hall
      exact absurd ⟨_, _, hall.symm⟩ hn

/-! ## The whole stream -/

@[simp] theorem left_exitPending (c : Client) (pieces : List (List Byte)) (rest : List Byte) :
    (c.left pieces rest).exitPending = false := by
  obtain ⟨buffer, lines, he⟩ := processControlBytes_withLines
    ({ c with
        dataQueue := c.dataQueue ++ pieces
        exitBuffer := []
        exitPending := false
        dataMode := false }.emitEvent (str "+IND=DATAMODE,0")) rest
  rw [left, he]
  rfl

theorem handleChunks_of_not_pending (hpending : c.exitPending = false) (chunks : List (List Byte)) :
    c.handleChunks chunks = (c, chunks) := by
  cases chunks with
  | nil => rfl
  | cons chunk chunks => simp [handleChunks, hpending]

theorem handleChunks_leaves (hpending : c.exitPending = true) (hbytes : pieces.flatten ++ held = stream)
    (hheld : Splitter.Held EXIT_EVENT stream held) (hn : ¬EXIT_EVENT <:+: stream) {chunks : List (List Byte)}
    (h : EXIT_EVENT <:+: stream ++ chunks.flatten) :
    ∃ pieces' used chunk unused rest,
      Splitter.First EXIT_EVENT (stream ++ chunks.flatten) pieces'.flatten ∧ chunks = used ++ chunk :: unused ∧
      stream ++ used.flatten ++ chunk = pieces'.flatten ++ EXIT_EVENT ++ rest ∧ rest <:+ chunk ∧
      (c.passedOn pieces held).handleChunks chunks = (c.left pieces' rest, unused) := by
  induction chunks generalizing pieces held stream with
  | nil => exact absurd (by simpa using h) hn
  | cons chunk chunks ih =>
      have hloop : (c.passedOn pieces held).handleChunks (chunk :: chunks) =
          ((c.passedOn pieces held).handleChunk chunk).handleChunks chunks := if_pos hpending
      rw [List.flatten_cons, ← List.append_assoc] at h ⊢
      rw [hloop]
      by_cases hnow : EXIT_EVENT <:+: stream ++ chunk
      · obtain ⟨pieces', rest, hcall, hall, hfirst, hrest⟩ := handleChunk_leaves (c := c) hbytes hheld hn hnow
        refine ⟨pieces', [], chunk, chunks, rest, hfirst.append _, rfl, ?_, hrest, ?_⟩
        · rw [← hall, List.flatten_nil, List.append_nil]
        · rw [hcall, handleChunks_of_not_pending (left_exitPending c pieces' rest)]
      · obtain ⟨pieces', held', hcall, hbytes', hheld'⟩ := handleChunk_waits (c := c) hbytes hheld hnow
        obtain ⟨pieces'', used, last, unused, rest, hfirst, hchunks, hall, hrest, hrun⟩ := ih hbytes' hheld' hnow h
        refine ⟨pieces'', chunk :: used, last, unused, rest, hfirst, by rw [hchunks]; rfl, ?_, hrest, ?_⟩
        · rw [List.flatten_cons, ← List.append_assoc stream, hall]
        · rw [hcall, hrun]

theorem handleChunks_waits (hpending : c.exitPending = true) (hbytes : pieces.flatten ++ held = stream)
    (hheld : Splitter.Held EXIT_EVENT stream held) {chunks : List (List Byte)}
    (h : ¬EXIT_EVENT <:+: stream ++ chunks.flatten) :
    ∃ pieces' held', pieces'.flatten ++ held' = stream ++ chunks.flatten ∧
      Splitter.Held EXIT_EVENT (stream ++ chunks.flatten) held' ∧
      (c.passedOn pieces held).handleChunks chunks = (c.passedOn pieces' held', []) := by
  induction chunks generalizing pieces held stream with
  | nil =>
      rw [List.flatten_nil, List.append_nil]
      exact ⟨pieces, held, hbytes, hheld, rfl⟩
  | cons chunk chunks ih =>
      have hloop : (c.passedOn pieces held).handleChunks (chunk :: chunks) =
          ((c.passedOn pieces held).handleChunk chunk).handleChunks chunks := if_pos hpending
      rw [List.flatten_cons, ← List.append_assoc] at h ⊢
      have hnow : ¬EXIT_EVENT <:+: stream ++ chunk := fun hi => h (hi.trans (List.prefix_append _ _).isInfix)
      obtain ⟨pieces', held', hcall, hbytes', hheld'⟩ := handleChunk_waits (c := c) hbytes hheld hnow
      obtain ⟨pieces'', held'', hbytes'', hheld'', hrun⟩ := ih hbytes' hheld' h
      refine ⟨pieces'', held'', hbytes'', hheld'', ?_⟩
      rw [hloop, hcall, hrun]

/-- However the stream is cut, the splitter finds the first exit event in it, or holds back what may become one. -/
theorem exit_splitter (hempty : c.exitBuffer = []) (hpending : c.exitPending = true) (chunks : List (List Byte)) :
    (EXIT_EVENT <:+: chunks.flatten →
      ∃ pieces used chunk unused rest,
        Splitter.First EXIT_EVENT chunks.flatten pieces.flatten ∧ chunks = used ++ chunk :: unused ∧
        used.flatten ++ chunk = pieces.flatten ++ EXIT_EVENT ++ rest ∧ rest <:+ chunk ∧
        c.handleChunks chunks = (c.left pieces rest, unused)) ∧
    (¬EXIT_EVENT <:+: chunks.flatten →
      ∃ pieces held, pieces.flatten ++ held = chunks.flatten ∧ Splitter.Held EXIT_EVENT chunks.flatten held ∧
        c.handleChunks chunks = (c.passedOn pieces held, [])) ∧
    ∀ exitBuffer chunk, Returns (exitBuffer ++ chunk) (handleExitPendingChunk exitBuffer chunk).1
      (handleExitPendingChunk exitBuffer chunk).2 := by
  have hstart : c = c.passedOn [] [] := by
    rw [passedOn, ← hempty, List.append_nil]
  have hnone : ¬EXIT_EVENT <:+: [] := by decide
  have hheld : Splitter.Held EXIT_EVENT [] [] := held_heldBack []
  have hbytes : ([] : List (List Byte)).flatten ++ [] = [] := rfl
  refine ⟨fun h => ?_, fun h => ?_, returns_handleExitPendingChunk⟩
  · have hstream : EXIT_EVENT <:+: [] ++ chunks.flatten := h
    have hleaves := handleChunks_leaves hpending hbytes hheld hnone hstream
    rw [← hstart] at hleaves
    exact hleaves
  · have hstream : ¬EXIT_EVENT <:+: [] ++ chunks.flatten := h
    have hwaits := handleChunks_waits hpending hbytes hheld hstream
    rw [← hstart] at hwaits
    exact hwaits

theorem exit_splitter_halves :
    ∃ pieces used chunk unused rest,
      [ascii "a+IND=", ascii "DATAMODE,0\r\nok", ascii "+"] = used ++ chunk :: unused ∧ rest <:+ chunk ∧
        ({ Client.init with dataMode := true, exitPending := true } : Client).handleChunks
            [ascii "a+IND=", ascii "DATAMODE,0\r\nok", ascii "+"] =
          (({ Client.init with dataMode := true, exitPending := true } : Client).left pieces rest, unused) := by
  obtain ⟨pieces, used, chunk, unused, rest, -, hchunks, -, hrest, hrun⟩ :=
    (exit_splitter (c := { Client.init with dataMode := true, exitPending := true }) rfl rfl
      [ascii "a+IND=", ascii "DATAMODE,0\r\nok", ascii "+"]).1 (by decide)
  exact ⟨pieces, used, chunk, unused, rest, hchunks, hrest, hrun⟩

end BleAtHost.Client
