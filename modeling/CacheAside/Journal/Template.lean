import CacheAside.Json.Plain
import CacheAside.Json.Reader
import CacheAside.Number.Rounded

/-! # Templates

A template is a text with marks, each of which begins with a percent sign. Two percent signs stand for
one. Every other mark takes an argument and says how it is written: as plain text (`s`), quoted (`r`, and
`a` in ASCII), as a character (`c`), as a whole number (`d`, `i`, `u`, and `o`, `x`, `X` in base eight and
sixteen), or as a decimal number (`f`, `e`, `g` and their capitals). Before the letter may stand a name in
round brackets, under which the argument is found, flags, a least width, and a point with a number of
digits.

`parse` cuts a template into pieces and finds no fault with any. `fill` goes through the pieces from the
left; the first that cannot be written decides the fault. -/

namespace CacheAside
set_option autoImplicit false

/-- Why a template cannot be filled. -/
inductive TemplateFault where
  | tooFewArguments
  | tooManyArguments
  /-- A mark names its argument, but arguments have no names. -/
  | noNames
  | unknownName (name : String)
  /-- An argument is of another kind than its mark. -/
  | unfit
  | notANumber
  | infinite
  /-- An integer beyond all doubles. -/
  | tooLarge
  /-- No character has this number. -/
  | noCharacter
  /-- A width or precision given by an argument is beyond the machine. -/
  | widthOverflow
  | precisionOverflow
  /-- A width or precision in the template is beyond the machine. -/
  | widthTooBig
  | precisionTooBig
  /-- The template breaks off in a mark. -/
  | incomplete
  /-- The template breaks off in a name. -/
  | incompleteName
  | unknownForm (letter : Char) (position : Nat)
deriving DecidableEq, Repr

/-- A character as it is shown in a message, where only printable ones are. -/
def TemplateFault.shown (c : Char) : Char := if 31 ≤ c.toNat ∧ c.toNat ≤ 126 then c else '?'

def TemplateFault.message : TemplateFault → String
  | .tooFewArguments => "not enough arguments for format string"
  | .tooManyArguments => "not all arguments converted during string formatting"
  | .noNames => "format requires a mapping"
  | .unknownName name => String.ofList (Json.quoted name)
  | .unfit => "argument of another kind than its mark"
  | .notANumber => "cannot convert float NaN to integer"
  | .infinite => "cannot convert float infinity to integer"
  | .tooLarge => "int too large to convert to float"
  | .noCharacter => "%c arg not in range(0x110000)"
  | .widthOverflow => "width beyond the machine"
  | .precisionOverflow => "precision beyond the machine"
  | .widthTooBig => "width too big"
  | .precisionTooBig => "precision too big"
  | .incomplete => "incomplete format"
  | .incompleteName => "incomplete format key"
  | .unknownForm letter position =>
    "unsupported format character '" ++ String.ofList [shown letter] ++ "' (0x" ++
      String.ofList (Nat.toDigits 16 letter.toNat) ++ ") at index " ++ toString position

namespace Template

/-! ## Pieces -/

/-- A width or a precision. -/
inductive Extent where
  | absent
  | given (n : Nat)
  /-- The next argument says it. -/
  | argument
deriving DecidableEq, Repr

structure Mark where
  /-- The name of its argument. -/
  name : Option String
  flags : List Char
  width : Extent
  precision : Extent
  /-- The letter that says how the argument is written; none where the template breaks off. -/
  form : Option Char
  /-- Where that letter stands. -/
  position : Nat
deriving DecidableEq, Repr

namespace Mark

def flushLeft (m : Mark) : Bool := '-' ∈ m.flags

def signed (m : Mark) : Bool := '+' ∈ m.flags

def spaced (m : Mark) : Bool := ' ' ∈ m.flags

def alternate (m : Mark) : Bool := '#' ∈ m.flags

def zeros (m : Mark) : Bool := '0' ∈ m.flags

end Mark

inductive Piece where
  | char (c : Char)
  | mark (m : Mark)
  /-- A mark whose name has no closing bracket. -/
  | unclosed
deriving DecidableEq, Repr

/-! ## Parsing -/

/-- A name up to its closing bracket, and the text after it; brackets inside come in pairs. -/
def cutName : Nat → List Char → Option (List Char × List Char)
  | _, [] => none
  | inside, c :: cs =>
    if c = ')' ∧ inside = 0 then some ([], cs)
    else
      let inside := if c = ')' then inside - 1 else if c = '(' then inside + 1 else inside
      (cutName inside cs).map fun (name, rest) => (c :: name, rest)

def isDigit (c : Char) : Bool := '0' ≤ c ∧ c ≤ '9'

def isFlag (c : Char) : Bool := c ∈ ['-', '+', ' ', '#', '0']

def cutExtent (cs : List Char) : Extent × List Char :=
  if cs.head? = some '*' then (.argument, cs.drop 1)
  else
    let digits := cs.takeWhile isDigit
    (if digits.isEmpty then .absent else .given (Nat.ofDigitChars 10 digits 0), cs.dropWhile isDigit)

/-- A point and what follows it; a point alone stands for none. -/
def cutPrecision (cs : List Char) : Extent × List Char :=
  if cs.head? = some '.' then
    match cutExtent (cs.drop 1) with
    | (.absent, rest) => (.given 0, rest)
    | cut => cut
  else (.absent, cs)

/-- One letter that says how large an argument is has no meaning. -/
def dropSize (cs : List Char) : List Char :=
  if cs.head?.any (· ∈ ['h', 'l', 'L']) then cs.drop 1 else cs

/-- A mark behind its percent sign and its name, and the text after it. The whole template has so many
characters. -/
def cutMark (total : Nat) (name : Option String) (cs : List Char) : Mark × List Char :=
  let flags := cs.takeWhile isFlag
  let (width, rest) := cutExtent (cs.dropWhile isFlag)
  let (precision, rest) := cutPrecision rest
  let rest := dropSize rest
  (⟨name, flags, width, precision, rest.head?, total - rest.length⟩, rest.drop 1)

/-- A piece behind a percent sign, and the text after it. -/
def cutPiece (total : Nat) (cs : List Char) : Piece × List Char :=
  match cs with
  | '%' :: rest => (.char '%', rest)
  | '(' :: rest =>
    match cutName 0 rest with
    | none => (.unclosed, [])
    | some (name, rest) =>
      let (m, rest) := cutMark total (some (String.ofList name)) rest
      (.mark m, rest)
  | cs =>
    let (m, rest) := cutMark total none cs
    (.mark m, rest)

/-- The pieces of a text of which the first characters, so many, belong to a piece before it. -/
def piecesAfter (total : Nat) : Nat → List Char → List Piece
  | _, [] => []
  | passed + 1, _ :: cs => piecesAfter total passed cs
  | 0, c :: cs =>
    if c = '%' then
      let (piece, rest) := cutPiece total cs
      piece :: piecesAfter total (cs.length - rest.length) cs
    else .char c :: piecesAfter total 0 cs

def parse (template : String) : List Piece :=
  let cs := template.toList
  piecesAfter cs.length 0 cs

/-! ## Arguments -/

/-- The arguments that are still to be written, and where names are looked up. -/
structure Supply where
  pending : List Json
  names : Option Json

namespace Supply

/-- Arguments without names. -/
def several (arguments : List Json) : Supply := ⟨arguments, none⟩

/-- A single argument; an object gives names to its members, and a list has no use for them. -/
def single : Json → Supply
  | .obj ms => ⟨[.obj ms], some (.obj ms)⟩
  | .arr vs => ⟨[.arr vs], some (.arr vs)⟩
  | v => ⟨[v], none⟩

/-- The next argument. -/
def next (s : Supply) : Except TemplateFault (Json × Supply) :=
  match s.pending with
  | [] => .error .tooFewArguments
  | v :: vs => .ok (v, { s with pending := vs })

/-- The argument with a name is the only one from then on. -/
def named (name : String) (s : Supply) : Except TemplateFault Supply :=
  match s.names with
  | some (.obj ms) =>
    match Rows.find? name ms with
    | some v => .ok { s with pending := [v] }
    | none => .error (.unknownName name)
  | _ => .error .noNames

end Supply

/-! ## Writing an argument -/

/-- An argument in writing, not yet of its full width. -/
structure Written where
  /-- Whether it is a number, which can have a sign and zeros in front. -/
  number : Bool
  negative : Bool
  /-- What stands between the sign and the zeros. -/
  base : List Char
  text : List Char

/-- A text, cut off after so many characters. -/
def textual (precision : Option Nat) (cs : List Char) : Written :=
  ⟨false, false, [], precision.elim cs cs.take⟩

/-- Beyond ASCII every character is written by number. -/
def asciiChar (c : Char) : List Char := if c.toNat < 0x80 then [c] else Json.numbered c

/-- An integer. -/
def integer? : Json → Option Int
  | .int i => some i
  | .bool b => some (if b then 1 else 0)
  | _ => none

/-- An argument as a whole number; what a double has behind the point is dropped. -/
def whole : Json → Except TemplateFault Int
  | .float x =>
    if x.isNaN then .error .notANumber
    else if x.isInf then .error .infinite
    else
      let (num, den) := Number.size x
      .ok (if x < 0.0 then -(num / den : Nat) else (num / den : Nat))
  | v => (integer? v).elim (.error .unfit) .ok

/-- A number in some base with so many digits at least. -/
def digits (base : Nat) (marker : List Char) (precision : Option Nat) (i : Int) : Written :=
  ⟨true, i < 0, marker, Number.padded (precision.getD 0) (Nat.toDigits base i.natAbs)⟩

/-- An integer in base eight or sixteen, which may be marked with its base. -/
def based (m : Mark) (base : Nat) (letter : Char) (precision : Option Nat) (v : Json) :
    Except TemplateFault Written :=
  match integer? v with
  | none => .error .unfit
  | some i => .ok (digits base (if m.alternate then ['0', letter] else []) precision i)

/-- An argument as a double. -/
def double : Json → Except TemplateFault Float
  | .float x => .ok x
  | .int i => if (Float.ofInt i).isInf then .error .tooLarge else .ok (Float.ofInt i)
  | .bool b => .ok (if b then 1.0 else 0.0)
  | _ => .error .unfit

/-- A decimal number; doubles without digits go by their names. -/
def decimal (layout : Float → List Char) (v : Json) : Except TemplateFault Written := do
  let x ← double v
  let text := if x.isNaN then "nan".toList else if x.isInf then "inf".toList else layout x
  return ⟨true, Number.isNegative x && !x.isNaN, [], text⟩

/-- A character, or the one with a number. -/
def character : Json → Except TemplateFault Char
  | .str s =>
    match s.toList with
    | [c] => .ok c
    | _ => .error .unfit
  | v =>
    match integer? v with
    | none => .error .unfit
    | some i => if 0 ≤ i ∧ i < 0x110000 then .ok (Json.charOf i.toNat) else .error .noCharacter

def capitals (w : Written) : Written :=
  ⟨w.number, w.negative, w.base.map Char.toUpper, w.text.map Char.toUpper⟩

/-- An argument in the form that a letter asks for. -/
def write (m : Mark) (letter : Char) (precision : Option Nat) (v : Json) : Except TemplateFault Written :=
  let places := precision.getD 6
  match letter with
  | 's' => .ok (textual precision v.plain.toList)
  | 'r' => .ok (textual precision v.inner)
  | 'a' => .ok (textual precision (v.inner.flatMap asciiChar))
  | 'c' => do return textual none [← character v]
  | 'd' | 'i' | 'u' => do return digits 10 [] precision (← whole v)
  | 'o' => based m 8 'o' precision v
  | 'x' => based m 16 'x' precision v
  | 'X' => return capitals (← based m 16 'x' precision v)
  | 'f' => decimal (Number.fixed m.alternate places) v
  | 'F' => return capitals (← decimal (Number.fixed m.alternate places) v)
  | 'e' => decimal (Number.scientific m.alternate places) v
  | 'E' => return capitals (← decimal (Number.scientific m.alternate places) v)
  | 'g' => decimal (Number.general m.alternate places) v
  | 'G' => return capitals (← decimal (Number.general m.alternate places) v)
  | _ => .error (.unknownForm letter m.position)

/-- What stands before the digits of a number to show its sign. -/
def signOf (m : Mark) (w : Written) : List Char :=
  if !w.number then []
  else if w.negative then ['-']
  else if m.signed then ['+']
  else if m.spaced then [' ']
  else []

/-- An argument at its full width. -/
def laidOut (m : Mark) (width : Int) (w : Written) : List Char :=
  let sign := signOf m w
  let missing := width.natAbs - (sign.length + w.base.length + w.text.length)
  if m.flushLeft ∨ width < 0 then sign ++ w.base ++ w.text ++ List.replicate missing ' '
  else if w.number && m.zeros then sign ++ w.base ++ List.replicate missing '0' ++ w.text
  else List.replicate missing ' ' ++ sign ++ w.base ++ w.text

/-! ## Filling -/

/-- The least number that machine words of one sign have no room for. -/
def wordBound : Nat := Nat.pow 2 63

/-- The same for half words. -/
def halfBound : Nat := Nat.pow 2 31

/-- A width; a negative one, which only an argument can give, sets the argument flush left. -/
def widthOf (e : Extent) (s : Supply) : Except TemplateFault (Int × Supply) :=
  match e with
  | .absent => .ok (0, s)
  | .given n => if n < wordBound then .ok (n, s) else .error .widthTooBig
  | .argument => do
    let (v, s) ← s.next
    match integer? v with
    | none => throw .unfit
    | some i => if -(wordBound : Int) ≤ i ∧ i < wordBound then return (i, s) else throw .widthOverflow

/-- A precision; a negative one stands for zero. -/
def precisionOf (e : Extent) (s : Supply) : Except TemplateFault (Option Nat × Supply) :=
  match e with
  | .absent => .ok (none, s)
  | .given n => if n < halfBound then .ok (some n, s) else .error .precisionTooBig
  | .argument => do
    let (v, s) ← s.next
    match integer? v with
    | none => throw .unfit
    | some i =>
      if -(halfBound : Int) ≤ i ∧ i < halfBound then return (some i.toNat, s)
      else throw .precisionOverflow

/-- A mark with its argument. -/
def fillMark (m : Mark) (s : Supply) : Except TemplateFault (List Char × Supply) := do
  let s ← match m.name with
    | none => pure s
    | some name => s.named name
  let (width, s) ← widthOf m.width s
  let (precision, s) ← precisionOf m.precision s
  match m.form with
  | none => throw .incomplete
  | some letter =>
    let (v, s) ← s.next
    let w ← write m letter precision v
    return (laidOut m width w, s)

/-- The pieces with their arguments. Arguments without names have to be used up. -/
def fillPieces : List Piece → Supply → Except TemplateFault (List Char)
  | [], s => if s.names.isNone && !s.pending.isEmpty then .error .tooManyArguments else .ok []
  | .char c :: pieces, s => do return c :: (← fillPieces pieces s)
  | .mark m :: pieces, s => do
    let (cs, s) ← fillMark m s
    return cs ++ (← fillPieces pieces s)
  | .unclosed :: _, s => .error (if s.names.isNone then .noNames else .incompleteName)

/-- A template with its arguments put in. -/
def fill (template : String) (arguments : Supply) : Except TemplateFault String := do
  return String.ofList (← fillPieces (parse template) arguments)

end Template
end CacheAside
