import GridClient.Table

/-!
# Values of a settings text

Settings are written in TOML: tables of values that headers and dotted keys put
together. A table remembers how it came to be, which decides what later lines may
add to it. A table is never defined twice.
-/

namespace GridClient
namespace Toml

/-- How a table came to be. -/
inductive Origin where
  /-- It has a header of its own. -/
  | header
  /-- A header of a table below it implies it. -/
  | implied
  /-- A dotted key leads through it. -/
  | dotted
  /-- It is written between braces. -/
  | braces
  deriving DecidableEq, Repr

/-- Of fractional numbers and of times no more is kept than that they are well
written. -/
inductive Value where
  | text (s : String)
  | integer (n : Int)
  | boolean (b : Bool)
  | fraction
  | moment
  | array (items : List Value)
  | table (origin : Origin) (fields : List (String × Value))
  | tables (items : List (List (String × Value)))
  deriving Repr

abbrev Fields := Table String Value

/-- Tables between braces are closed. Others can be entered from a header below
them, and from a dotted key unless they have a header of their own. -/
def Origin.mayEnter (step table : Origin) : Bool :=
  match table with
  | .braces => false
  | .header => step != .dotted
  | .implied | .dotted => true

namespace Fields

/-- Changes the table to which a path leads. A name on the path that is not there
yet becomes a table of the origin `step`. A name of a list of tables stands for its
last one. -/
def reach (step : Origin) (change : Origin → Fields → Option Fields) :
    List String → Origin → Fields → Option Fields
  | [], origin, fields => change origin fields
  | name :: path, _, fields =>
      match Table.get? fields name with
      | none => do
          let inner ← reach step change path step []
          return Table.insert fields name (.table step inner)
      | some (.table origin inner) =>
          if step.mayEnter origin then do
            let inner ← reach step change path origin inner
            return Table.insert fields name (.table origin inner)
          else none
      | some (.tables items) =>
          match items.getLast? with
          | none => none
          | some last => do
              let last ← reach step change path .header last
              return Table.insert fields name (.tables (items.dropLast ++ [last]))
      | some _ => none

/-- Puts in a value under a new name. Behind a dotted path, only a table that
dotted keys have made takes new names. -/
def put (path : List String) (name : String) (v : Value) : Origin → Fields → Option Fields :=
  reach .dotted
    (fun origin fields =>
      if (path.isEmpty || origin == .dotted) && !Table.contains fields name then
        some (Table.insert fields name v)
      else none)
    path

/-- Gives a table its header. The name is new, or so far only implied. -/
def openTable (path : List String) (name : String) : Origin → Fields → Option Fields :=
  reach .implied
    (fun _ fields =>
      match Table.get? fields name with
      | none => some (Table.insert fields name (.table .header []))
      | some (.table .implied inner) => some (Table.insert fields name (.table .header inner))
      | some _ => none)
    path

/-- Starts a new table at the end of a list of tables. -/
def openItem (path : List String) (name : String) : Origin → Fields → Option Fields :=
  reach .implied
    (fun _ fields =>
      match Table.get? fields name with
      | none => some (Table.insert fields name (.tables [[]]))
      | some (.tables items) => some (Table.insert fields name (.tables (items ++ [[]])))
      | some _ => none)
    path

def ofEntries (entries : List ((List String × String) × Value)) (origin : Origin) :
    Option Fields :=
  entries.foldlM (fun fields ((path, name), v) => put path name v origin fields) []

end Fields

/-!
# Documents
-/

/-- What a line of a settings text says. -/
inductive Line where
  | entry (path : List String) (name : String) (value : Value)
  | table (path : List String) (name : String)
  | item (path : List String) (name : String)
  deriving Repr

structure Document where
  root : Fields := []
  current : List String := []

namespace Document

def add (d : Document) : Line → Option Document
  | .entry path name v => do
      let root ← Fields.reach .implied (Fields.put path name v) d.current .header d.root
      return { d with root }
  | .table path name => do
      let root ← Fields.openTable path name .header d.root
      return ⟨root, path ++ [name]⟩
  | .item path name => do
      let root ← Fields.openItem path name .header d.root
      return ⟨root, path ++ [name]⟩

def ofLines (lines : List Line) : Option Fields :=
  (lines.foldlM add {}).map root

end Document
end Toml
end GridClient
