/-
  FormIntake — patterns of text.

  A `Pattern` is a regular expression.  `Pattern.Matches` is its meaning, and
  `Pattern.accepts` decides it by taking the pattern apart one character after
  the other: `p.after c` is what may follow `c` in a text of `p`.
-/
namespace FormIntake.Text

/-- A pattern of text. -/
inductive Pattern where
  /-- No text at all. -/
  | never
  /-- The empty text. -/
  | empty
  /-- One character of a class. -/
  | one (p : Char → Bool)
  /-- A text of the first pattern and then one of the second. -/
  | andThen (first second : Pattern)
  /-- A text of either pattern. -/
  | either (left right : Pattern)
  /-- Any number of texts of the pattern. -/
  | many (p : Pattern)

namespace Pattern

/-- The texts of a pattern. -/
inductive Matches : Pattern → List Char → Prop where
  | empty : Matches .empty []
  | one {p : Char → Bool} {c : Char} : p c = true → Matches (.one p) [c]
  | andThen {p q : Pattern} {s t : List Char} :
      Matches p s → Matches q t → Matches (.andThen p q) (s ++ t)
  | left {p q : Pattern} {s : List Char} : Matches p s → Matches (.either p q) s
  | right {p q : Pattern} {s : List Char} : Matches q s → Matches (.either p q) s
  | none {p : Pattern} : Matches (.many p) []
  | more {p : Pattern} {s t : List Char} :
      Matches p s → Matches (.many p) t → Matches (.many p) (s ++ t)

/-! ## Derived patterns -/

/-- The character `c`. -/
def char (c : Char) : Pattern := one (· == c)

/-- At least one text of the pattern. -/
def some (p : Pattern) : Pattern := andThen p (many p)

/-- A text of the pattern, or none. -/
def option (p : Pattern) : Pattern := either empty p

/-- Exactly `n` texts of the pattern. -/
def times (p : Pattern) : Nat → Pattern
  | 0 => empty
  | n + 1 => andThen p (times p n)

/-- At most `n` texts of the pattern. -/
def upTo (p : Pattern) : Nat → Pattern
  | 0 => empty
  | n + 1 => option (andThen p (upTo p n))

/-- The patterns one after the other. -/
def sequence (ps : List Pattern) : Pattern := ps.foldr andThen empty

/-! ## Deciding -/

/-- The empty text is a text of the pattern. -/
def acceptsEmpty : Pattern → Bool
  | never | one _ => false
  | empty | many _ => true
  | andThen p q => p.acceptsEmpty && q.acceptsEmpty
  | either p q => p.acceptsEmpty || q.acceptsEmpty

/-- `andThen`, leaving out what makes no difference. -/
def joined : Pattern → Pattern → Pattern
  | never, _ => never
  | empty, q => q
  | p, q => andThen p q

/-- `either`, leaving out what makes no difference. -/
def merged : Pattern → Pattern → Pattern
  | never, q => q
  | p, never => p
  | p, q => either p q

/-- What may follow `c` in a text of the pattern. -/
def after (c : Char) : Pattern → Pattern
  | never | empty => never
  | one p => if p c then empty else never
  | andThen p q =>
    if p.acceptsEmpty then merged (joined (p.after c) q) (q.after c) else joined (p.after c) q
  | either p q => merged (p.after c) (q.after c)
  | many p => joined (p.after c) (many p)

/-- The characters are a text of the pattern. -/
def accepts (p : Pattern) (cs : List Char) : Bool :=
  (cs.foldl (fun q c => q.after c) p).acceptsEmpty

end Pattern

end FormIntake.Text
