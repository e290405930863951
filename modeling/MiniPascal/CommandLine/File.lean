import MiniPascal.Text.Basic

/-!
# Files

Paths are used in their **normal form**, without empty and dot components. A file is known by the
**bytes** of its path, which are those of UTF-8. A byte that is no part of any UTF-8 text can stand
in a path too: a surrogate stands for it. A text file is decoded as UTF-8, and every line end in it,
be it a carriage return, a line feed or both, becomes a line feed.
-/

namespace MiniPascal.CommandLine

/-- What is found at a path. -/
inductive FileContent
  | missing
  /-- Something that is no file to read, such as a directory. -/
  | unreadable
  /-- A path that is too long to look for. -/
  | tooLong
  | bytes (content : ByteArray)

/-! ### Paths -/

/-- The components between the slashes of a path. -/
def components : Text → List Text
  | [] => [[]]
  | c :: cs =>
    if c = .char '/' then [] :: components cs
    else
      match components cs with
      | [] => [[c]]
      | first :: rest => (c :: first) :: rest

/-- The root that a path starts from, empty for a relative path. Exactly two slashes are a root
of their own. -/
def root (path : Text) : Text :=
  match path with
  | .char '/' :: .char '/' :: .char '/' :: _ => "/"
  | .char '/' :: .char '/' :: _ => "//"
  | .char '/' :: _ => "/"
  | _ => []

/-- The normal form of a path. -/
def normalPath (path : Text) : Text :=
  let parts := (components path).filter fun part => part ≠ [] && part ≠ [.char '.']
  let start := root path
  if start.isEmpty && parts.isEmpty then "."
  else start ++ List.intercalate [.char '/'] parts

/-- The path of the tree document that is saved for a source file in normal form. -/
def treePath (path : Text) : Text := path ++ ".tree.json"

/-- The greatest number of bytes of a component of a path. -/
def maxNameBytes : Nat := 255

/-- The greatest number of bytes of a path. -/
def maxPathBytes : Nat := 4095

/-- The distance of the surrogate that stands for byte zero from the first one. -/
def firstByteSurrogate : Nat := 0x400

/-- The bytes that a code point is in a path. A surrogate stands for a byte from 128 on, or for
nothing; the zero byte is in no path. -/
def codePointBytes? : CodePoint → Option (List UInt8)
  | .char c => if c.toNat = 0 then none else some (String.utf8EncodeChar c)
  | .surrogate offset =>
    if firstByteSurrogate + 128 ≤ offset.val && offset.val < firstByteSurrogate + 256 then
      some [UInt8.ofNat (offset.val - firstByteSurrogate)]
    else none

/-- The bytes of a path, unless it is one that no file can have. -/
def pathBytes? (path : Text) : Option (List UInt8) :=
  (path.mapM codePointBytes?).map List.flatten

/-- Whether the path has bytes, and at most the given number of them. -/
def fits (limit : Nat) (path : Text) : Bool := (pathBytes? path).any (·.length ≤ limit)

/-- Whether neither the path nor one of its components is too long. -/
def pathFits (path : Text) : Bool :=
  fits maxPathBytes path && (components path).all (fits maxNameBytes)

/-! ### Texts -/

/-- The characters with every line end made a line feed. -/
def unifyLineEnds : List Char → List Char
  | [] => []
  | '\r' :: '\n' :: rest => '\n' :: unifyLineEnds rest
  | c :: rest => (if c = '\r' then '\n' else c) :: unifyLineEnds rest

/-- The characters of a text file, unless it is not UTF-8. -/
def decodeText? (content : ByteArray) : Option (List Char) :=
  (String.fromUTF8? content).map fun s => unifyLineEnds s.toList

end MiniPascal.CommandLine
