namespace HostBoundary

abbrev Directory (α : Type) := List (String × α)

namespace Directory

variable {α : Type}

def insert (name : String) (x : α) : Directory α → Directory α
  | [] => [(name, x)]
  | (other, y) :: rest =>
    if name < other then (name, x) :: (other, y) :: rest
    else if name = other then (name, x) :: rest
    else (other, y) :: insert name x rest

def erase (name : String) (d : Directory α) : Directory α := d.filter (·.1 ≠ name)

def find? (name : String) (d : Directory α) : Option α := d.lookup name

def ofEntries (entries : List (String × α)) : Directory α :=
  entries.foldl (fun d (name, x) => d.insert name x) []

end Directory

end HostBoundary
