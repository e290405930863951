import MiniPascal.Value.Basic

/-!
# What can go wrong in a run

A **cause** is something a program does that has no meaning, such as dividing by zero; it is
reported with the line where it happens. A **fault** is anything that stops a run: a cause, a
number that cannot be converted or written, or a tree that lacks what a node of its kind needs,
which can only be so in a tree that was not made from a program text without errors.

The wording of a cause is the language's own. The other faults are worded by the runtime, which speaks
of its own types, and a fault comes with all that its wording depends on. Where the wording is a matter
of the machine or of a decoder, it is left to the runtime (`MiniPascal.Runtime`).
-/

namespace MiniPascal

/-! ### Causes -/

/-- What a program may do that has no meaning. -/
inductive Cause
  | divisionByZero
  /-- Whole division of something other than two integers. -/
  | integersRequired
  /-- Arithmetic on something other than two numbers. -/
  | numbersRequired (left right : Value.Kind)
  /-- An order is asked for between values of different kinds. -/
  | incomparable (left right : Value.Kind)
  /-- An arithmetic operator that the language does not have. -/
  | unknownArithmetic (symbol : Text)
  /-- A relational operator that the language does not have. -/
  | unknownRelation (symbol : Text)
  /-- A variable is read before it has got a value. -/
  | unassigned (name : Text)
deriving DecidableEq

/-- The wording of a cause. -/
def Cause.message : Cause → Text
  | divisionByZero => "division by zero"
  | integersRequired => "DIV requires integer operands"
  | numbersRequired l r => "numeric operands required, got " ++ l.name ++ " and " ++ r.name
  | incomparable l r => "cannot compare " ++ l.name ++ " with " ++ r.name
  | unknownArithmetic s => "unknown arithmetic operator " ++ s
  | unknownRelation s => "unknown relational operator " ++ s
  | unassigned name => "variable " ++ name ++ " has no value"

/-! ### Numbers -/

/-- Why a number cannot be made, converted or written. -/
inductive NumberFault
  /-- The text is no integer. -/
  | malformedInteger (text : Text)
  /-- The text is no real. -/
  | malformedReal (text : Text)
  /-- An integer is to be made from something of a type that is neither a number nor a text. -/
  | noInteger (given : String)
  /-- A real is to be made from something of a type that is neither a number nor a text. -/
  | noReal (given : String)
  /-- A NaN has no integer part. -/
  | undefined
  /-- An infinity has no integer part. -/
  | infinite
  /-- The integer is beyond the greatest finite real. -/
  | tooLarge
  /-- The quotient of two integers is beyond the greatest finite real. -/
  | quotientTooLarge
  /-- The integer has too many digits to be written. -/
  | overlong
  /-- A numeral of that many digits is too long to be read. -/
  | overlongNumeral (digits : Nat)
deriving DecidableEq

/-- That a numeral is too long. -/
def NumberFault.limit : Text :=
  "Exceeds the limit (" ++ Numeral.write Numeral.maxDigits ++ " digits) for integer string conversion"

/-- How a numeral could be longer. -/
def NumberFault.remedy : Text := "; use sys.set_int_max_str_digits() to increase the limit"

/-- How much of a text is shown that is no integer. -/
def NumberFault.maxShown : Nat := 200

/-- The wording of a number's fault. -/
def NumberFault.message : NumberFault → Text
  | malformedInteger text =>
    "invalid literal for int() with base 10: " ++ (Text.quote text).take maxShown
  | malformedReal text => "could not convert string to float: " ++ Text.quote text
  | noInteger given =>
    "int() argument must be a string, a bytes-like object or a real number, not '" ++ given ++ "'"
  | noReal given => "float() argument must be a string or a real number, not '" ++ given ++ "'"
  | undefined => "cannot convert float NaN to integer"
  | infinite => "cannot convert float infinity to integer"
  | tooLarge => "int too large to convert to float"
  | quotientTooLarge => "integer division result too large for a float"
  | overlong => limit ++ remedy
  | overlongNumeral digits => limit ++ ": value has " ++ Numeral.write digits ++ " digits" ++ remedy

/-! ### Faults -/

/-- What a rule asks of something that has to be a value, before anything else. -/
inductive Inquiry
  /-- Of which kind it is. -/
  | kind
  /-- Whether it is a number. -/
  | numeric
  /-- What it holds. -/
  | data
deriving DecidableEq

/-- The name of what is asked. -/
def Inquiry.name : Inquiry → String
  | kind => "kind"
  | numeric => "is_numeric"
  | data => "data"

/-- What is asked of the second operand of an operator: whether it is a number too, if the first one is. -/
def Inquiry.second (first : Value) : Inquiry := if first.isNumeric then numeric else kind

/-- What stops a run. -/
inductive Fault
  /-- The program did something without meaning on the given line. -/
  | program (line : Int) (cause : Cause)
  /-- A node of a kind for which there is no rule. -/
  | unexpectedNode (name : Text)
  | number (fault : NumberFault)
  /-- A node has not the number of children that its kind needs. -/
  | wrongArity (needed given : Nat)
  /-- A REPEAT loop has no children, and so no test. -/
  | noTest
  /-- A child that is needed is not there. -/
  | missingChild
  /-- A variable is needed, and the node is not bound to one. -/
  | unbound
  /-- A value is needed, and something of another type is there. -/
  | noValue (asked : Inquiry) (given : String)
  /-- The labels of a branch are not a list of constants. -/
  | noConstants (given : String)
  /-- A field width that is no number. -/
  | widthNotNumeric (given : String)
  /-- A field width that is a real. -/
  | widthNotInteger
  /-- A field width that does not fit 64 bits. -/
  | widthOutOfRange
  /-- A number of decimal places that is neither a number nor a truth value. -/
  | placesNotNumeric (given : String)
  /-- A number of decimal places that does not begin with a digit when it is written. -/
  | placesMissing
  /-- A number of decimal places that is a real, as it is written. -/
  | placesNotInteger (written : Text)
  /-- A number of decimal places that does not fit 32 bits. -/
  | placesTooMany
  /-- A number of decimal places that does not fit 64 bits. -/
  | placesOutOfRange
deriving DecidableEq

/-- **A runtime**, by what it says of its own accord. -/
structure Runtime where
  /-- About an integer that does not fit a machine word. -/
  wordOverflow : Text
  /-- About bytes that are no text. -/
  undecodable : ByteArray → Text
  /-- About a text that is no datum. -/
  notJson : List Char → Text

/-- The wording of a type that does not have what is asked of it. -/
def lacks (type asked : String) : Text :=
  "'" ++ type ++ "' object has no attribute '" ++ asked ++ "'"

/-- The wording of a type that is no sequence. -/
def notSequence (type : String) : Text := "'" ++ type ++ "' object is not iterable"

/-- The wording of two types that cannot be compared. -/
def notComparable (sign left right : String) : Text :=
  "'" ++ sign ++ "' not supported between instances of '" ++ left ++ "' and '" ++ right ++ "'"

/-- The wording of a fault; line zero stands for no line. -/
def Fault.message (runtime : Runtime) : Fault → Text
  | program line cause =>
    if line = 0 then cause.message
    else "line " ++ Numeral.write line ++ ": " ++ cause.message
  | unexpectedNode name => "unexpected node type " ++ name
  | number fault => fault.message
  | wrongArity needed given =>
    let expected := "(expected " ++ Numeral.write needed
    if given < needed then
      "not enough values to unpack " ++ expected ++ ", got " ++ Numeral.write given ++ ")"
    else "too many values to unpack " ++ expected ++ ")"
  | noTest => "not enough values to unpack (expected at least 1, got 0)"
  | missingChild => "list index out of range"
  | unbound => lacks "NoneType" "value"
  | noValue asked given => lacks given asked.name
  | noConstants given => notSequence given
  | widthNotNumeric given => notComparable ">=" given "int"
  | widthNotInteger => "'float' object cannot be interpreted as an integer"
  | widthOutOfRange => runtime.wordOverflow
  | placesNotNumeric given => notComparable ">" "int" given
  | placesMissing => "Format specifier missing precision"
  | placesNotInteger written =>
    "Invalid format specifier '." ++ written ++ "f' for object of type 'float'"
  | placesTooMany => "precision too big"
  | placesOutOfRange => "Too many decimal digits in format string"

end MiniPascal
