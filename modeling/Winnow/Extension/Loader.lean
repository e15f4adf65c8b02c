/-
  Loading extension filters.

  A catalog tells how the filters that the program knows are built, by name.  A loader
  reads the list of names when its filters are first asked for and keeps the filters
  of a list that could be loaded until it is reset.
-/
import Winnow.Extension.Listing

namespace Winnow.Extension

/-- What reading a path gives. -/
inductive FileContent where
  | absent
  | unreadable
  | text (content : String)
deriving DecidableEq

/-- The filters that can be built, or the reasons why they cannot, by name. -/
structure Catalog where
  entries : List (String × Except String Filter) := []

namespace Catalog

/-- Adds a name; a name registered again replaces the earlier one. -/
def register (c : Catalog) (name : String) (filter : Except String Filter) : Catalog :=
  ⟨(name, filter) :: c.entries⟩

def construct (c : Catalog) (name : String) : Except SetupError Filter :=
  match c.entries.lookup name with
  | none => .error (.unknownFilter name)
  | some (.error reason) => .error (.construction name reason)
  | some (.ok filter) => .ok filter

/-- The filters of the names, or the error of the first that cannot be built. -/
def constructAll (c : Catalog) : (names : List String) → Except SetupError (List Filter)
  | [] => .ok []
  | name :: names =>
    match c.construct name with
    | .error e => .error e
    | .ok f => (c.constructAll names).map (f :: ·)

/-- The filters of the list at `path` with this content. -/
def load (c : Catalog) (path : String) : FileContent → Except SetupError (List Filter)
  | .absent => .ok []
  | .unreadable => .error (.unreadable path)
  | .text text =>
    match parseList text with
    | .error e => .error e
    | .ok names => c.constructAll names

end Catalog

/-- Where the list is, how filters are built, and the filters loaded since the last
    reset. -/
structure Loader where
  path : Option String
  catalog : Catalog
  loaded : Option (List Filter) := none

namespace Loader

/-- The filters of the list as it is now; without a path there are none. -/
def load (l : Loader) (read : String → FileContent) : Except SetupError (List Filter) :=
  match l.path with
  | none => .ok []
  | some path => l.catalog.load path (read path)

/-- The extension filters; `read` tells what is at a path now. -/
def filters (l : Loader) (read : String → FileContent) :
    Except SetupError (List Filter) × Loader :=
  match l.loaded with
  | some fs => (.ok fs, l)
  | none =>
    match l.load read with
    | .error e => (.error e, l)
    | .ok fs => (.ok fs, { l with loaded := some fs })

def reset (l : Loader) : Loader :=
  { l with loaded := none }

end Loader

end Winnow.Extension
