import CacheAside.Json.Value

/-! # Values that do not fit

A field takes values of one kind. A value of another kind is told by the reason why it does not fit and
by the name under which it was given. What only texts can do is asked of texts; a value of another kind is
then told by what it was asked for. -/

namespace CacheAside
set_option autoImplicit false

/-- Why a value does not fit its field. -/
inductive Misfit where
  | notText
  | notInteger
  | notNumber
  | notObject
  | unreadableInteger
  | integerTooLong
  | fractional
  | notFinite
  | unreadableNumber
  | belowMinimum
  /-- There is no value at all. -/
  | missing
deriving DecidableEq, Repr

/-- A value that does not fit, under the name it was given by. -/
structure Fault where
  name : String
  misfit : Misfit
deriving DecidableEq, Repr

/-! ## Values in the place of texts -/

/-- What only a text can be asked for. -/
inductive TextUse where
  /-- Its parts between separators. -/
  | parts
  /-- Whether it begins with another text. -/
  | beginning
  | lowerCase
  | upperCase
  | capitalized
  /-- The text with some characters written otherwise. -/
  | replaced
  /-- The text as bytes. -/
  | encoded
deriving DecidableEq, Repr

/-- A value that is asked for what only a text has. -/
structure NotText where
  value : Json
  use : TextUse

end CacheAside
