import Mathlib.Logic.Function.Iterate
import BleAtHost.Client.Lemmas.Control

/-!
# The reader at the end of data mode

While an exit is pending the reader looks for the exit event in what it reads. What it holds back is too short to
hold the event, and an event that is not complete yet begins in it.
-/

namespace BleAtHost.Client

variable {c : Client} {buffer : List Byte} {passes n : Nat}

/-! ## Effects -/

theorem act_reader (c : Client) (effect : Effect) (reader : Reader) :
    ({ c with reader := reader } : Client).act effect = { c.act effect with reader := reader } := by
  cases effect with
  | data chunk =>
      simp only [act, emitData]
      split
      · rfl
      · rfl
  | control ch =>
      obtain ⟨buffer, lines, he⟩ := processControlByte_withLines c ch
      have hframe := processControlByte_frame c ch c.input reader
      rw [he] at hframe
      rw [act, act, he]
      exact hframe
  | _ => rfl

theorem act_same (c : Client) (effect : Effect) :
    (c.act effect).exitBuffer = c.exitBuffer ∧ (c.act effect).input = c.input := by
  cases effect with
  | data chunk =>
      simp only [act, emitData]
      split
      · exact ⟨rfl, rfl⟩
      · exact ⟨rfl, rfl⟩
  | control ch =>
      obtain ⟨buffer, lines, he⟩ := processControlByte_withLines c ch
      rw [act, he]
      exact ⟨rfl, rfl⟩
  | _ => exact ⟨rfl, rfl⟩

/-- The reader clears flags, and only when it has found the exit event. -/
theorem act_flags (c : Client) (effect : Effect) :
    (c.act effect).dataMode = (c.dataMode && effect ≠ .clearDataMode) ∧
      (c.act effect).exitPending = (c.exitPending && effect ≠ .clearExitPending) := by
  cases effect with
  | data chunk =>
      simp only [act, emitData]
      split
      · simp
      · simp
  | control ch =>
      obtain ⟨buffer, lines, he⟩ := processControlByte_withLines c ch
      simp [act, he, withLines]
  | _ => simp [act, emitEvent]

/-- A step of the reader sets no flag. -/
theorem readerStep_flags (c : Client) (n : Nat) :
    ((c.readerStep n).dataMode → c.dataMode) ∧ ((c.readerStep n).exitPending → c.exitPending) := by
  cases hr : c.reader with
  | top | control | data =>
      simp only [readerStep, hr]
      exact ⟨id, id⟩
  | got chunk =>
      simp only [readerStep, hr]
      split
      · exact ⟨id, id⟩
      · exact ⟨id, id⟩
  | busy todo =>
      cases todo with
      | nil =>
          simp only [readerStep, hr]
          exact ⟨id, id⟩
      | cons effect todo =>
          obtain ⟨hdata, hexit⟩ := act_flags c effect
          simp only [readerStep, hr, hdata, hexit, Bool.and_eq_true]
          exact ⟨And.left, And.left⟩

/-- The steps of the reader for one chunk. -/
theorem iterate_busy (n : Nat) (effects : List Effect) (c : Client) :
    (fun c : Client => c.readerStep n)^[effects.length + 1] { c with reader := .busy effects } =
      { effects.foldl act c with reader := .top } := by
  induction effects generalizing c with
  | nil => rfl
  | cons effect effects ih =>
      have hstep : ({ c with reader := .busy (effect :: effects) } : Client).readerStep n =
          { c.act effect with reader := .busy effects } :=
        congrArg (fun d : Client => { d with reader := .busy effects }) (act_reader c effect _)
      rw [List.length_cons, Function.iterate_succ_apply, hstep, ih, List.foldl_cons]

/-! ## The loop -/

theorem pendingExitPrefixLen_lt (buffer : List Byte) : pendingExitPrefixLen buffer < EXIT_EVENT.length := by
  have hle := Splitter.prefixLen_le EXIT_EVENT buffer (min buffer.length (EXIT_EVENT.length - 1))
  have hpos : 0 < EXIT_EVENT.length := by decide
  unfold pendingExitPrefixLen
  omega

theorem pendingExitPrefixLen_le (buffer : List Byte) : pendingExitPrefixLen buffer ≤ buffer.length := by
  have hle := Splitter.prefixLen_le EXIT_EVENT buffer (min buffer.length (EXIT_EVENT.length - 1))
  unfold pendingExitPrefixLen
  omega

/-- What is held back. -/
def heldBack (buffer : List Byte) : List Byte := buffer.drop (buffer.length - pendingExitPrefixLen buffer)

theorem length_heldBack (buffer : List Byte) : (heldBack buffer).length = pendingExitPrefixLen buffer := by
  have hle := pendingExitPrefixLen_le buffer
  rw [heldBack, List.length_drop]
  omega

theorem heldBack_suffix (buffer : List Byte) : heldBack buffer <:+ buffer := List.drop_suffix _ _

/-- All of it is held back again. -/
theorem pendingExitPrefixLen_heldBack (buffer : List Byte) :
    pendingExitPrefixLen (heldBack buffer) = (heldBack buffer).length := by
  have hlt := pendingExitPrefixLen_lt buffer
  have hlen := length_heldBack buffer
  refine Nat.le_antisymm (pendingExitPrefixLen_le _) (Splitter.le_prefixLen (by omega) ?_)
  rw [Nat.sub_self, List.drop_zero]
  exact Splitter.prefixLen_prefix EXIT_EVENT buffer _

theorem held_heldBack (buffer : List Byte) : Splitter.Held EXIT_EVENT buffer (heldBack buffer) :=
  Splitter.held_prefixLen (by decide) buffer

/-- What the loop does once it has found the event at the start of the buffer. -/
def exitEffects (rest : List Byte) : List Effect :=
  [.clearExitPending, .clearDataMode, .event (strip (decode EXIT_EVENT))] ++ rest.map .control

/-- `while exit_buffer` comes to its end over this buffer, with these effects and this buffer after it; one rule for
each way through the body. -/
inductive Returns : List Byte → List Effect → List Byte → Prop
  | empty : Returns [] [] []
  | event {buffer : List Byte} (hf : Splitter.find EXIT_EVENT buffer = some 0) :
      Returns buffer (exitEffects (buffer.drop EXIT_EVENT.length)) []
  | before {buffer rest : List Byte} {effects : List Effect} {k : Nat}
      (hf : Splitter.find EXIT_EVENT buffer = some (k + 1)) (next : Returns (buffer.drop (k + 1)) effects rest) :
      Returns buffer (.data (buffer.take (k + 1)) :: effects) rest
  | wait {buffer : List Byte} (hf : Splitter.find EXIT_EVENT buffer = none)
      (hflush : buffer.length - pendingExitPrefixLen buffer = 0) : Returns buffer [] buffer
  | flush {buffer rest : List Byte} {effects : List Effect} (hf : Splitter.find EXIT_EVENT buffer = none)
      (hflush : buffer.length - pendingExitPrefixLen buffer ≠ 0) (next : Returns (heldBack buffer) effects rest) :
      Returns buffer (.data (buffer.take (buffer.length - pendingExitPrefixLen buffer)) :: effects) rest

/-- Every pass but the last shortens the buffer. -/
theorem returns_exitPendingLoop (hp : buffer.length < passes) :
    Returns buffer (exitPendingLoop passes buffer).1 (exitPendingLoop passes buffer).2 := by
  induction passes generalizing buffer with
  | zero => omega
  | succ passes ih =>
      rw [exitPendingLoop]
      split
      · rename_i he
        subst he
        exact .empty
      · rename_i hne
        have hpos : 0 < buffer.length := List.length_pos_iff.mpr hne
        cases hf : Splitter.find EXIT_EVENT buffer with
        | none =>
            dsimp only
            split
            · rename_i hflush
              exact .wait hf hflush
            · rename_i hflush
              apply Returns.flush hf hflush
              apply ih
              have hlen := length_heldBack buffer
              have hle := pendingExitPrefixLen_le buffer
              omega
        | some start =>
            cases start with
            | zero => exact .event hf
            | succ k =>
                apply Returns.before hf
                apply ih
                rw [List.length_drop]
                omega

theorem returns_handleExitPendingChunk (exitBuffer chunk : List Byte) :
    Returns (exitBuffer ++ chunk) (handleExitPendingChunk exitBuffer chunk).1
      (handleExitPendingChunk exitBuffer chunk).2 :=
  returns_exitPendingLoop (Nat.lt_succ_self _)

section
variable {effects : List Effect} {rest : List Byte}

theorem drop_find {k : Nat} (hf : Splitter.find EXIT_EVENT buffer = some k) :
    ∃ after, buffer.drop k = EXIT_EVENT ++ after := by
  obtain ⟨after, hr, hle⟩ := Splitter.find_eq_some hf
  refine ⟨after, ?_⟩
  conv => lhs; rw [hr]
  rw [List.append_assoc, List.drop_append_of_le_length (by simp [hle])]
  simp

/-- Without the event what is not held back is data. -/
theorem Returns.none (h : Returns buffer effects rest) (hn : ¬EXIT_EVENT <:+: buffer) :
    rest = heldBack buffer ∧
      ∃ pieces : List (List Byte), effects = pieces.map .data ∧ [] ∉ pieces ∧ pieces.flatten ++ rest = buffer := by
  induction h with
  | empty => exact ⟨rfl, [], rfl, List.not_mem_nil, rfl⟩
  | event hf => exact absurd (hf ▸ Splitter.find_eq_none.mpr hn) (by simp)
  | before hf => exact absurd (hf ▸ Splitter.find_eq_none.mpr hn) (by simp)
  | wait hf hflush =>
      refine ⟨?_, [], rfl, List.not_mem_nil, rfl⟩
      rw [heldBack, hflush, List.drop_zero]
  | @flush buffer rest effects hf hflush next ih =>
      have hrest : ¬EXIT_EVENT <:+: heldBack buffer := fun hi => hn (hi.trans (heldBack_suffix buffer).isInfix)
      obtain ⟨hheld, pieces, heffects, hne, hbytes⟩ := ih hrest
      refine ⟨hheld.trans ?_, buffer.take _ :: pieces, by rw [heffects]; rfl, ?_, ?_⟩
      · rw [heldBack, pendingExitPrefixLen_heldBack, Nat.sub_self, List.drop_zero]
      · intro hmem
        rcases List.mem_cons.mp hmem with hnil | hmem
        · have hlen := congrArg List.length hnil
          rw [List.length_take, List.length_nil] at hlen
          omega
        · exact hne hmem
      · rw [List.flatten_cons, List.append_assoc, hbytes]
        exact List.take_append_drop _ _

/-- With the event what stands before it is data. -/
theorem Returns.some (h : Returns buffer effects rest) (hi : EXIT_EVENT <:+: buffer) :
    rest = [] ∧
      ∃ (pieces : List (List Byte)) (after : List Byte), effects = pieces.map .data ++ exitEffects after ∧
        [] ∉ pieces ∧ buffer = pieces.flatten ++ EXIT_EVENT ++ after ∧
        Splitter.First EXIT_EVENT buffer pieces.flatten := by
  induction h with
  | empty => exact absurd hi (by decide)
  | event hf =>
      obtain ⟨after, hafter⟩ := drop_find hf
      have hfirst := Splitter.find_first hf
      rw [List.drop_zero] at hafter
      refine ⟨rfl, [], after, ?_, List.not_mem_nil, hafter, hfirst⟩
      rw [hafter, List.drop_left]
      rfl
  | @before buffer rest effects k hf next ih =>
      obtain ⟨after, hafter⟩ := drop_find hf
      have hfirst := Splitter.find_first hf
      obtain ⟨hnil, pieces, after', heffects, hne, hbytes, hnext⟩ := ih (hafter ▸ (List.prefix_append _ _).isInfix)
      -- the event now stands at the start
      have hempty : pieces.flatten = [] := by
        apply List.length_eq_zero_iff.mp
        exact Nat.le_zero.mp (hnext.first [] (hafter ▸ List.prefix_append _ _))
      have hpos : 0 < (buffer.take (k + 1)).length := by
        have hle := congrArg List.length hafter
        have hevent : 0 < EXIT_EVENT.length := by decide
        rw [List.length_drop, List.length_append] at hle
        rw [List.length_take]
        omega
      refine ⟨hnil, buffer.take (k + 1) :: pieces, after', by rw [heffects]; rfl, ?_, ?_, ?_⟩
      · intro hmem
        rcases List.mem_cons.mp hmem with he | hmem
        · rw [← he, List.length_nil] at hpos
          omega
        · exact hne hmem
      · rw [List.flatten_cons, List.append_assoc, List.append_assoc, ← List.append_assoc pieces.flatten, ← hbytes]
        exact (List.take_append_drop _ _).symm
      · rw [List.flatten_cons, hempty, List.append_nil]
        exact hfirst
  | wait hf => exact absurd hi (Splitter.find_eq_none.mp hf)
  | flush hf => exact absurd hi (Splitter.find_eq_none.mp hf)

end

end BleAtHost.Client
