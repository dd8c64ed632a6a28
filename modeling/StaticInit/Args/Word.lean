/-!
# Words of a command line

What the spelling of one argument makes of it (`Word.ofText`), before any
option is known: the separator `--`, a long name that may carry a value after
the first `=`, a cluster of short flags, or a plain text. The empty text and a
lone `-` are plain.
-/

namespace StaticInit.Args

inductive Word where
  | separator
  | long (name : String) (value? : Option String)
  /-- Short flags behind one dash. -/
  | cluster (first : Char) (others : List Char)
  | plain
deriving DecidableEq

namespace Word

/-- What stands before the first `=`, and what stands behind it. -/
def splitValue (cs : List Char) : String × Option String :=
  (String.ofList (cs.takeWhile (· != '=')),
    match cs.dropWhile (· != '=') with
    | [] => none
    | _ :: value => some (String.ofList value))

def ofChars : List Char → Word
  | ['-', '-'] => .separator
  | '-' :: '-' :: cs => .long (splitValue cs).1 (splitValue cs).2
  | '-' :: c :: cs => .cluster c cs
  | _ => .plain

def ofText (text : String) : Word := ofChars text.toList

end Word

/-- Digits, with at most one point after the first of them, and at most one exponent of digits
behind. -/
def isUnsignedNumber (cs : List Char) : Bool :=
  let fraction := cs.dropWhile Char.isDigit
  let tail := match fraction with
    | '.' :: ds => ds.dropWhile Char.isDigit
    | _ => fraction
  (cs.head?.any Char.isDigit) && match tail with
    | [] => true
    | e :: ds => (e = 'e' || e = 'E') && !ds.isEmpty && ds.all Char.isDigit

/-- A text that looks like a negative number rather than a cluster of flags. -/
def isNegativeNumber : List Char → Bool
  | '-' :: cs => isUnsignedNumber cs
  | _ => false

end StaticInit.Args
