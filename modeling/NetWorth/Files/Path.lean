/-!
# Paths

Paths are texts whose parts are separated by slashes.
-/

namespace NetWorth.Path

/-- Splits characters at every slash. -/
def splitSlashes : List Char → List (List Char)
  | [] => [[]]
  | c :: rest =>
    if c = '/' then [] :: splitSlashes rest
    else
      match splitSlashes rest with
      | part :: parts => (c :: part) :: parts
      | [] => [[c]]

/-- The parts of a path, without empty ones and without single dots. -/
def parts (path : String) : List String :=
  ((splitSlashes path.toList).filter fun part => part ≠ [] ∧ part ≠ ['.']).map String.ofList

/-- Whether a path starts at the root. -/
def isAbsolute (path : String) : Bool :=
  path.toList.head? == some '/'

/-- Removes slashes, and single dots behind a slash, from the end of a path that is given in
reverse, but never its first character. -/
def dropEnd : List Char → List Char
  | '/' :: c :: rest => dropEnd (c :: rest)
  | '.' :: '/' :: rest => dropEnd ('/' :: rest)
  | cs => cs

/-- Whether a path can only lead to a directory, because nothing follows its last slash. -/
def endsOpen (path : String) : Bool :=
  match path.toList.reverse with
  | '/' :: _ => true
  | '.' :: '/' :: _ => true
  | _ => false

/-- A path in two: everything up to its last name, in reverse, and that name. -/
def splitName (path : List Char) : List Char × List Char :=
  let reversed := dropEnd path.reverse
  let name := reversed.takeWhile (· != '/')
  (reversed.drop name.length, name.reverse)

/-- The directory of a path: empty for a single name, and nothing for the root and the empty path.
-/
def parent? (path : String) : Option String :=
  match splitName path.toList with
  | (_, []) => none
  | (front, _) => some (String.ofList (dropEnd front).reverse)

/-- A name in two: what stands before its last dot, and the extension after it.  A dot in front does
not begin an extension. -/
def splitExtension (name : List Char) : List Char × List Char :=
  let reversed := name.reverse
  let extension := reversed.takeWhile (· != '.')
  match reversed.drop extension.length with
  | _ :: before => if before.isEmpty then (name, []) else (before.reverse, extension.reverse)
  | [] => (name, [])

/-- A path without as many characters at its end as the extension of its name has. -/
def dropExtension (path : List Char) : List Char :=
  path.take (path.length - (splitExtension (splitName path).2).2.length)

/-- Gives the name of a path an extension in place of its own, which is removed first.  Dots alone
are no name and get no extension. -/
def withExtension (path extension : String) : String :=
  let bare := dropExtension path.toList
  let (front, name) := splitName bare
  if name = [] ∨ name = ['.'] ∨ name = ['.', '.'] then String.ofList bare
  else String.ofList (front.reverse ++ (splitExtension name).1 ++ '.' :: extension.toList)

/-- A path seen from a directory. -/
def join (directory path : String) : String :=
  if isAbsolute path ∨ directory.isEmpty then path
  else if directory.toList.getLast? = some '/' then directory ++ path
  else directory ++ "/" ++ path

end NetWorth.Path
