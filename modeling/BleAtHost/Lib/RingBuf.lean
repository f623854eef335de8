import Mathlib.Data.List.Basic
import Mathlib.Tactic.Common

/-!
# Ring buffers with two read cursors

A bounded byte queue in the manner of an operating system's ring buffer. The reader has two cursors: the
claimed head, which a claim moves forward, and the consumed tail, which only a finish moves. A claim returns
contiguous storage, so it stops at the end of the storage area.
-/

/-- The stored elements, oldest first, from the consumed tail on. `claimed` is how far the claimed head is
ahead of the consumed tail and `offset` is the place of the consumed tail in the storage area. -/
structure RingBuf (α : Type) (size : Nat) where
  data : List α
  claimed : Nat
  offset : Nat
  claimed_le : claimed ≤ data.length
  fits : data.length ≤ size
  offset_mod : offset % size = offset
deriving DecidableEq, Repr

namespace RingBuf

variable {α : Type} {size : Nat}

/-- The result of a reset. -/
def empty : RingBuf α size := ⟨[], 0, 0, Nat.le_refl 0, Nat.zero_le _, Nat.zero_mod _⟩

/-- The number of elements that are not yet claimed. -/
def sizeGet (r : RingBuf α size) : Nat := r.data.length - r.claimed

/-- The room left, counted from the consumed tail. -/
def spaceGet (r : RingBuf α size) : Nat := size - r.data.length

/-- Stores as many of the elements as there is room for and returns their number. -/
def put (r : RingBuf α size) (xs : List α) : Nat × RingBuf α size :=
  (min xs.length r.spaceGet,
    { r with
      data := r.data ++ xs.take r.spaceGet
      claimed_le := by have := r.claimed_le; simp only [List.length_append]; omega
      fits := by have := r.fits; simp only [List.length_append, List.length_take, spaceGet]; omega })

/-- What is left of the storage area after the claimed head. -/
def contiguous (r : RingBuf α size) : Nat := size - (r.offset + r.claimed) % size

/-- The number of elements a claim of at most `n` returns. -/
def claimLen (r : RingBuf α size) (n : Nat) : Nat := min (min n r.sizeGet) r.contiguous

/-- Returns the next unclaimed contiguous elements, at most `n`, and moves the claimed head past them. -/
def getClaim (r : RingBuf α size) (n : Nat) : List α × RingBuf α size :=
  ((r.data.drop r.claimed).take (r.claimLen n),
    { r with
      claimed := r.claimed + r.claimLen n
      claimed_le := by have := r.claimed_le; simp only [claimLen, sizeGet]; omega })

/-- Consumes `n` elements from the consumed tail and rewinds the claimed head to it; `-EINVAL` if fewer are
claimed. -/
def getFinish (r : RingBuf α size) (n : Nat) : Int × RingBuf α size :=
  if n ≤ r.claimed then
    (0,
      { data := r.data.drop n
        claimed := 0
        offset := (r.offset + n) % size
        claimed_le := Nat.zero_le _
        fits := by have := r.fits; simp only [List.length_drop]; omega
        offset_mod := Nat.mod_mod _ _ })
  else (-22, r)

/-- `xs` was taken from the front, and nothing of the rest is claimed. It says nothing if something was claimed
before. -/
def Takes (r : RingBuf α size) (xs : List α) (r' : RingBuf α size) : Prop :=
  r.claimed = 0 → xs ++ r'.data = r.data ∧ r'.claimed = 0

theorem ext_fields {r r' : RingBuf α size} (hd : r.data = r'.data) (hc : r.claimed = r'.claimed)
    (ho : r.offset = r'.offset) : r = r' := by
  cases r; cases r'; simp_all

/-! ## Put -/

@[simp] theorem empty_data : (empty : RingBuf α size).data = [] := rfl
@[simp] theorem empty_claimed : (empty : RingBuf α size).claimed = 0 := rfl
@[simp] theorem empty_sizeGet : (empty : RingBuf α size).sizeGet = 0 := rfl
@[simp] theorem empty_spaceGet : (empty : RingBuf α size).spaceGet = size := rfl

@[simp] theorem put_data (r : RingBuf α size) (xs : List α) :
    (r.put xs).2.data = r.data ++ xs.take r.spaceGet := rfl
@[simp] theorem put_claimed (r : RingBuf α size) (xs : List α) : (r.put xs).2.claimed = r.claimed := rfl

theorem put_fst (r : RingBuf α size) (xs : List α) : (r.put xs).1 = (xs.take r.spaceGet).length := by
  simp [put, Nat.min_comm]

theorem put_spaceGet (r : RingBuf α size) (xs : List α) :
    (r.put xs).2.spaceGet = r.spaceGet - xs.length := by
  simp only [spaceGet, put_data, List.length_append, List.length_take]; omega

/-- A full buffer stores nothing. -/
theorem put_of_full {r : RingBuf α size} (h : r.spaceGet = 0) (xs : List α) : (r.put xs).2 = r := by
  refine ext_fields ?_ rfl rfl
  rw [put_data, h, List.take_zero, List.append_nil]

/-! ## Claim and finish -/

@[simp] theorem getClaim_data (r : RingBuf α size) (n : Nat) : (r.getClaim n).2.data = r.data := rfl

theorem getClaim_claimed (r : RingBuf α size) (n : Nat) :
    (r.getClaim n).2.claimed = r.claimed + (r.getClaim n).1.length := by
  have : r.claimLen n ≤ r.data.length - r.claimed := by simp only [claimLen, sizeGet]; omega
  simp only [getClaim, List.length_take, List.length_drop]; omega

theorem getClaim_length (r : RingBuf α size) (n : Nat) : (r.getClaim n).1.length = r.claimLen n := by
  have : r.claimLen n ≤ r.data.length - r.claimed := by simp only [claimLen, sizeGet]; omega
  simp only [getClaim, List.length_take, List.length_drop]; omega

theorem getClaim_length_le (r : RingBuf α size) (n : Nat) : (r.getClaim n).1.length ≤ n := by
  rw [getClaim_length]; simp only [claimLen]; omega

theorem getClaim_length_le_sizeGet (r : RingBuf α size) (n : Nat) :
    (r.getClaim n).1.length ≤ r.sizeGet := by
  rw [getClaim_length]; simp only [claimLen]; omega

/-- With nothing claimed, a claim returns the front of the queue. -/
theorem getClaim_of_rewound {r : RingBuf α size} (h : r.claimed = 0) (n : Nat) :
    (r.getClaim n).1 = r.data.take (r.getClaim n).1.length := by
  rw [getClaim_length]; simp [getClaim, h]

/-- A claim that returns nothing leaves the buffer as it was. -/
theorem getClaim_of_nil {r : RingBuf α size} {n : Nat} (h : (r.getClaim n).1 = []) :
    (r.getClaim n).2 = r := by
  refine ext_fields rfl ?_ rfl
  rw [getClaim_claimed, h]; rfl

/-- A claim makes progress whenever something is unclaimed. -/
theorem getClaim_ne_nil {r : RingBuf α size} {n : Nat} (hn : 0 < n) (hs : 0 < r.sizeGet) :
    (r.getClaim n).1 ≠ [] := by
  have hsize : 0 < size := by
    have := r.fits; simp only [sizeGet] at hs; omega
  have hc : 0 < r.contiguous := Nat.sub_pos_of_lt (Nat.mod_lt _ hsize)
  rw [← List.length_pos_iff, getClaim_length]
  simp only [claimLen]; omega

theorem getFinish_of_le {r : RingBuf α size} {n : Nat} (h : n ≤ r.claimed) :
    (r.getFinish n).2.data = r.data.drop n ∧ (r.getFinish n).2.claimed = 0 := by
  simp [getFinish, h]

/-- The finish that follows a claim: it consumes from the consumed tail, not from the place of the claim. -/
theorem getClaim_getFinish {r : RingBuf α size} {n k : Nat} (h : k ≤ (r.getClaim n).1.length) :
    ((r.getClaim n).2.getFinish k).2.data = r.data.drop k ∧
      ((r.getClaim n).2.getFinish k).2.claimed = 0 :=
  getFinish_of_le (by rw [getClaim_claimed]; omega)

/-- A claim of a rewound buffer followed by a finish of its first `k` elements takes `k` elements from the
front. -/
theorem claimed_take_append {r : RingBuf α size} {n k : Nat} (hc : r.claimed = 0)
    (h : k ≤ (r.getClaim n).1.length) :
    (r.getClaim n).1.take k ++ ((r.getClaim n).2.getFinish k).2.data = r.data := by
  rw [(getClaim_getFinish h).1, getClaim_of_rewound hc n, List.take_take, Nat.min_eq_left h,
    List.take_append_drop]

end RingBuf
