/-!
# Places in a line

A place in a line of a description is counted in bytes of the line's UTF-8 form, so that a
place found in one reading of the line can be handed to any tool that holds the same bytes.
-/

namespace Gleaner

/-- Bytes that a run of characters takes in UTF-8. -/
def byteLength : List Char → Nat
  | [] => 0
  | c :: rest => c.utf8Size + byteLength rest

@[simp] theorem byteLength_nil : byteLength [] = 0 := rfl

@[simp] theorem byteLength_cons (c : Char) (rest : List Char) :
    byteLength (c :: rest) = c.utf8Size + byteLength rest := rfl

@[simp] theorem byteLength_append (first second : List Char) :
    byteLength (first ++ second) = byteLength first + byteLength second := by
  induction first with
  | nil => simp
  | cons c rest ih => simp [ih, Nat.add_assoc]

/-- A byte range, from `start` up to and without `stop`. -/
structure Span where
  start : Nat
  stop : Nat
deriving DecidableEq, Repr, Inhabited

/-- A part of a line of a description: the whole line as it was written, and the bytes meant. -/
structure Location where
  line : String
  span : Span
deriving DecidableEq, Repr, Inhabited

end Gleaner
