import Mathlib.Data.List.Basic
import Mathlib.Tactic.Common

/-!
# Network buffers

A window on bytes in memory in the manner of an operating system's network buffers. Bytes are pulled from the
front of the window; its place can be saved and restored. What would go beyond the window has no result.
-/

/-- `data` is the place of the window in the storage, `len` its length. -/
structure NetBufSimple where
  buf : List UInt8
  data : Nat
  len : Nat
  within : data + len ≤ buf.length
deriving DecidableEq, Repr

structure NetBufSimpleState where
  offset : Nat
  len : Nat
deriving DecidableEq, Repr

namespace NetBufSimple

/-- A buffer whose window is all of the bytes. -/
def ofBytes (bytes : List UInt8) : NetBufSimple := ⟨bytes, 0, bytes.length, by omega⟩

/-- The bytes of the window. -/
def bytes (b : NetBufSimple) : List UInt8 := (b.buf.drop b.data).take b.len

def pull (b : NetBufSimple) (n : Nat) : Option NetBufSimple :=
  if h : n ≤ b.len then some ⟨b.buf, b.data + n, b.len - n, by have := b.within; omega⟩ else none

def pullU8 (b : NetBufSimple) : Option (UInt8 × NetBufSimple) :=
  match b.bytes with
  | [] => none
  | ch :: _ => (b.pull 1).map fun b => (ch, b)

/-- The first `n` bytes of the window. -/
def read (b : NetBufSimple) (n : Nat) : Option (List UInt8) := if n ≤ b.len then some (b.bytes.take n) else none

def save (b : NetBufSimple) : NetBufSimpleState := ⟨b.data, b.len⟩

def restore (b : NetBufSimple) (state : NetBufSimpleState) : Option NetBufSimple :=
  if h : state.offset + state.len ≤ b.buf.length then some ⟨b.buf, state.offset, state.len, h⟩ else none

@[simp] theorem bytes_ofBytes (bytes : List UInt8) : (ofBytes bytes).bytes = bytes := List.take_length

theorem length_bytes (b : NetBufSimple) : b.bytes.length = b.len := by
  have := b.within
  simp only [bytes, List.length_take, List.length_drop]
  omega

/-- What a pull of the first part of the window leaves. -/
theorem pull_append {b : NetBufSimple} {front rest : List UInt8} (h : b.bytes = front ++ rest) :
    ∃ b', b.pull front.length = some b' ∧ b'.bytes = rest ∧ b'.buf = b.buf := by
  have hlen : front.length + rest.length = b.len := by rw [← length_bytes, h, List.length_append]
  have hle : front.length ≤ b.len := by omega
  refine ⟨_, dif_pos hle, ?_, rfl⟩
  have hdrop : b.bytes.drop front.length = rest := by rw [h, List.drop_left]
  rw [← hdrop]
  simp only [bytes, List.drop_take, List.drop_drop]

theorem pullU8_cons {b : NetBufSimple} {ch : UInt8} {rest : List UInt8} (h : b.bytes = ch :: rest) :
    ∃ b', b.pullU8 = some (ch, b') ∧ b'.bytes = rest ∧ b'.buf = b.buf := by
  have hfront : b.bytes = [ch] ++ rest := h
  obtain ⟨b', hp, hb⟩ := pull_append hfront
  refine ⟨b', ?_, hb⟩
  have hp1 : b.pull 1 = some b' := hp
  simp only [pullU8, h, hp1, Option.map_some]

theorem read_append {b : NetBufSimple} {front rest : List UInt8} (h : b.bytes = front ++ rest) {n : Nat}
    (hn : n ≤ front.length) : b.read n = some (front.take n) := by
  have hlen : front.length + rest.length = b.len := by rw [← length_bytes, h, List.length_append]
  rw [read, if_pos (by omega), h, List.take_append_of_le_length hn]

/-- A saved place is found again while the storage is the same. -/
theorem restore_save {b b' : NetBufSimple} (h : b'.buf = b.buf) : b'.restore b.save = some b := by
  obtain ⟨buf, data, len, hw⟩ := b
  simp only at h
  simp only [restore, save, h]
  exact dif_pos hw

end NetBufSimple
