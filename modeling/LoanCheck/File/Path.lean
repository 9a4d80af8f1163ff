/-!
Paths of files.  A path is kept as its parts: empty parts and single dots say
nothing and are left out, while double dots stay, because a directory may be a
link.
-/

namespace LoanCheck

structure Path where
  /-- What the path starts from: nothing, `/`, or exactly two slashes. -/
  root : List Char
  parts : List (List Char)
deriving DecidableEq, Repr

namespace Path

/-- Cut a text at every slash. -/
def cut : List Char → List (List Char)
  | [] => [[]]
  | c :: rest =>
      match cut rest with
      | [] => [[c]]
      | part :: parts => if c = '/' then [] :: part :: parts else (c :: part) :: parts

/-- The root that a text starts with. -/
def rootOf (text : List Char) : List Char :=
  match (text.takeWhile (· == '/')).length with
  | 0 => []
  | 2 => ['/', '/']
  | _ => ['/']

def ofChars (text : List Char) : Path :=
  { root := rootOf text
    parts := (cut text).filter fun part => !part.isEmpty && part != ['.'] }

def ofString (text : String) : Path := ofChars text.toList

/-- Put slashes between parts. -/
def join : List (List Char) → List Char
  | [] => []
  | [part] => part
  | part :: rest => part ++ '/' :: join rest

/-- The path as text; the empty path is the current directory. -/
def chars (path : Path) : List Char :=
  match path.root, path.parts with
  | [], [] => ['.']
  | root, parts => root ++ join parts

def text (path : Path) : String := String.ofList path.chars

/-- The last part. -/
def name (path : Path) : List Char := path.parts.getLast?.getD []

/-- Cut a name before its last dot.  A dot at either end does not count. -/
def splitName (name : List Char) : List Char × List Char :=
  let ending := (name.reverse.takeWhile (· != '.')).length
  let stem := name.take (name.length - ending - 1)
  if name.contains '.' && ending != 0 && !stem.isEmpty then
    (stem, name.drop (name.length - ending - 1))
  else (name, [])

/-- The name without its last suffix. -/
def stem (path : Path) : String := String.ofList (splitName path.name).1

/-- The last suffix of the name with its dot, if it has one. -/
def suffix (path : Path) : String := String.ofList (splitName path.name).2

end Path

end LoanCheck
