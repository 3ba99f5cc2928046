import OrderedStore.Error

/-!
# Routes

A path text is read as the names between its slashes. Names are followed from the working
directory, which is the root of every tree here; a slash at the end asks for a directory.

* `Route.ofText`: the route of a path text, if the system accepts the text;
* `Route.parent`: the route to the directory above;
* `joinPath`: the path text of a name below a path.
-/

namespace OrderedStore

/-- The path text of `name` below `path`. -/
def joinPath (path name : String) : String :=
  match path.toList.getLast? with
  | none | some '/' => path ++ name
  | some _ => path ++ "/" ++ name

/-- The names of a path, in order. -/
structure Route where
  names : List String
  /-- The path ends in a slash, so it must lead to a directory. -/
  slash : Bool
  deriving DecidableEq

namespace Route

/-- The pieces of a text between its slashes. -/
def pieces : List Char → List (List Char)
  | [] => [[]]
  | c :: cs =>
    if c = '/' then [] :: pieces cs
    else match pieces cs with
      | [] => [[c]]
      | p :: ps => (c :: p) :: ps

/-- Bytes that a name may have. -/
def maxName : Nat := 255

/-- Bytes that a whole path stays below. -/
def maxPath : Nat := 4096

def ofText (path : String) : Except SystemFault Route :=
  if path = "" then .error .notFound
  else if path.toList.contains '\x00' then .error .nulInName
  else if maxPath ≤ path.utf8ByteSize then .error .nameTooLong
  else .ok ⟨((pieces path.toList).filter (!·.isEmpty)).map String.ofList, path.toList.getLast? = some '/'⟩

/-- Drops the last names that stand for the directory they are in; the first name of all stays. -/
def dropDots : List String → List String
  | [] => []
  | first :: rest => first :: (rest.reverse.dropWhile (· = ".")).reverse

/-- The names that lead to the directory above. -/
def parent (names : List String) : List String := dropDots (dropDots names).dropLast

theorem length_dropDots_le (names : List String) : (dropDots names).length ≤ names.length := by
  cases names with
  | nil => exact Nat.le_refl _
  | cons first rest =>
    have h : (rest.reverse.dropWhile (· = ".")).length ≤ rest.reverse.length :=
      (List.dropWhile_suffix _).length_le
    simp only [dropDots, List.length_cons, List.length_reverse] at h ⊢
    omega

/-- The way up is shorter. -/
theorem length_parent_lt {names : List String} (h : names ≠ []) : (parent names).length < names.length := by
  have hpos : 0 < names.length := List.length_pos_iff.mpr h
  have h₁ := length_dropDots_le names
  have h₂ := length_dropDots_le (dropDots names).dropLast
  simp only [List.length_dropLast] at h₂
  simp only [parent]
  omega

end Route

end OrderedStore
