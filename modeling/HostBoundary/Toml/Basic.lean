namespace HostBoundary.Toml

structure Span where
  start : Nat
  stop : Nat
  deriving DecidableEq, Inhabited

inductive Scalar where
  | boolean (b : Bool)
  | integer (n : Int)
  | float (digits : String)
  | text (s : String)
  | moment (written : String)
  deriving DecidableEq

-- How a table came to be, which decides whether it can grow: under its own header, as a
-- step on the way to another header, by dotted keys, or inline.
inductive Origin where
  | header
  | implied
  | dotted
  | inline
  deriving DecidableEq

inductive Setting where
  | scalar (span : Span) (s : Scalar)
  | list (span : Span) (items : List Setting)
  | table (span : Span) (origin : Origin) (entries : List (String × Setting))
  | tables (items : List Setting)
  deriving Inhabited

abbrev Entries := List (String × Setting)

inductive Clash where
  | duplicate (key : String) (table : Option (List String))
  | extended (path : List String)
  deriving DecidableEq

def Clash.message : Clash → String
  | .duplicate key none => s!"duplicate key `{key}`"
  | .duplicate key (some []) => s!"duplicate key `{key}` in document root"
  | .duplicate key (some table) =>
    s!"duplicate key `{key}` in table `" ++ String.intercalate "." table ++ "`"
  | .extended path =>
    "dotted key `" ++ String.intercalate "." path ++ "` attempted to extend non-table type"

namespace Entries

def put (key : String) (s : Setting) : Entries → Entries
  | [] => [(key, s)]
  | (other, t) :: rest => if other = key then (key, s) :: rest else (other, t) :: put key s rest

-- Changes the table at the end of a path. Tables on the way are made if they are not
-- there: dotted ones for a dotted key, implied ones for a header. A dotted key does not
-- reach into a table that has a header of its own, and nothing reaches into an inline one.
def within (dotted : Bool) (span : Span) (act : Origin → Entries → Except Clash Entries)
    (origin : Origin) (done : List String) : List String → Entries → Except Clash Entries
  | [], entries => act origin entries
  | key :: rest, entries => do
    let path := done ++ [key]
    match entries.lookup key with
    | none =>
      let origin := if dotted then .dotted else .implied
      let inner ← within dotted span act origin path rest []
      return put key (.table span origin inner) entries
    | some (.table place inner entriesWithin) =>
      if inner = .inline then throw (.extended path)
      if dotted ∧ inner = .header then throw (.duplicate key none)
      let changed ← within dotted span act inner path rest entriesWithin
      return put key (.table place inner changed) entries
    | some (.tables items) =>
      match items.getLast? with
      | some (.table place inner entriesWithin) =>
        let changed ← within dotted span act inner path rest entriesWithin
        return put key (.tables (items.dropLast ++ [.table place inner changed])) entries
      | _ => throw (.extended path)
    | some _ => throw (.extended path)

-- Adds a setting under a dotted key to the table with the given path. Where the key has
-- several parts the last table on its way has to be one that dotted keys made.
def add (span : Span) (table path : List String) (key : String) (s : Setting) (origin : Origin)
    (entries : Entries) : Except Clash Entries :=
  let insert (origin : Origin) (entries : Entries) : Except Clash Entries :=
    if decide (origin = .dotted) = path.isEmpty then .error (.duplicate key none)
    else if (entries.lookup key).isSome then .error (.duplicate key (some (table ++ path)))
    else .ok (put key s entries)
  within true span insert origin [] path entries

def openTable (span : Span) (path : List String) (key : String) (entries : Entries) :
    Except Clash Entries :=
  let start (_ : Origin) (entries : Entries) : Except Clash Entries :=
    match entries.lookup key with
    | none => .ok (put key (.table span .header []) entries)
    | some (.table _ .implied inner) => .ok (put key (.table span .header inner) entries)
    | some _ => .error (.duplicate key (some path))
  within false span start .header [] path entries

def openNext (span : Span) (path : List String) (key : String) (entries : Entries) :
    Except Clash Entries :=
  let start (_ : Origin) (entries : Entries) : Except Clash Entries :=
    match entries.lookup key with
    | none => .ok (put key (.tables [.table span .header []]) entries)
    | some (.tables items) =>
      .ok (put key (.tables (items ++ [.table span .header []])) entries)
    | some _ => .error (.duplicate key (some path))
  within false span start .header [] path entries

def addTo (span : Span) (opened path : List String) (key : String) (s : Setting)
    (entries : Entries) : Except Clash Entries :=
  within false span (add span opened path key s) .header [] opened entries

end Entries

end HostBoundary.Toml
