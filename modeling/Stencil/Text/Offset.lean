/-
  Stencil.Text.Offset
  ───────────────────
  Byte offsets into a text and the line and column they stand for.

  An offset counts UTF-8 bytes; a line and a column count characters from 1.
  Only a line feed ends a line.  An offset inside a character counts that
  character as passed, and one past the end stands for the end.
-/
namespace Stencil.Text

/-! ## §1. Widths and cuts. -/

/-- The number of bytes a text takes. -/
def width : List Char → Nat
  | [] => 0
  | c :: cs => c.utf8Size + width cs

@[simp] theorem width_nil : width [] = 0 := rfl

@[simp] theorem width_cons (c : Char) (cs : List Char) :
    width (c :: cs) = c.utf8Size + width cs := rfl

@[simp] theorem width_append (xs ys : List Char) :
    width (xs ++ ys) = width xs + width ys := by
  induction xs with
  | nil => simp
  | cons c cs ih => simp [ih, Nat.add_assoc]

/-- The characters that begin before the offset. -/
def before : List Char → Nat → List Char
  | _, 0 => []
  | [], _ => []
  | c :: cs, n => c :: before cs (n - c.utf8Size)

/-- The characters that begin at or after the offset. -/
def after : List Char → Nat → List Char
  | cs, 0 => cs
  | [], _ => []
  | c :: cs, n => after cs (n - c.utf8Size)

/-- The two cuts share a text between them. -/
theorem before_append_after (cs : List Char) (n : Nat) :
    before cs n ++ after cs n = cs := by
  induction cs generalizing n with
  | nil => cases n <;> rfl
  | cons c cs ih =>
      cases n with
      | zero => rfl
      | succ n => simp [before, after, ih]

/-! ## §2. Lines and columns. -/

/-- A place in a text, both parts counted from 1. -/
structure Location where
  /-- One more than the number of line feeds passed. -/
  line : Nat
  /-- One more than the number of characters passed on this line. -/
  column : Nat
  deriving Repr, DecidableEq

/-- Where a text starts. -/
def Location.start : Location := ⟨1, 1⟩

/-- Pass one character. -/
def Location.step (at_ : Location) (c : Char) : Location :=
  if c = '\n' then ⟨at_.line + 1, 1⟩ else ⟨at_.line, at_.column + 1⟩

/-- The place an offset stands for. -/
def locate (source : List Char) (offset : Nat) : Location :=
  (before source offset).foldl Location.step .start

end Stencil.Text
