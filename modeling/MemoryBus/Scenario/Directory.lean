import MemoryBus.Error

/-! A directory of files, as a program run in it sees them. -/
namespace MemoryBus.Scenario

/-- Files by name. A name with a slash lies in a directory of its own. -/
structure Directory where
  files : List (String × ByteArray)

inductive Entry
  | file (bytes : ByteArray)
  | directory

namespace Directory

/-- What is at a place given by names alone. Of what lies outside only the directories above are known. -/
def at? (d : Directory) (place : List String) : Option Entry :=
  let name := "/".intercalate place
  if place.all (· == "..") || d.files.any fun (file, _) => (name ++ "/").isPrefixOf file then some .directory
  else (d.files.lookup name).map .file

def isDirectory (d : Directory) (place : List String) : Bool :=
  match d.at? place with
  | some .directory => true
  | _ => false

def parent (place : List String) : List String :=
  if place.all (· == "..") then place ++ [".."] else place.dropLast

/-- What a path leads to from `place`. Every part of it but the first starts from a directory. -/
def walk (d : Directory) (place : List String) : List String → Option Entry
  | [] => d.at? place
  | part :: rest =>
    if !d.isDirectory place then none
    else if part = "" ∨ part = "." then walk d place rest
    else if part = ".." then walk d (parent place) rest
    else walk d (place ++ [part]) rest

/-- Of the paths from the root only the root itself is known. -/
def entry? (d : Directory) (path : String) : Option Entry :=
  match path.splitOn "/" with
  | [""] => none
  | "" :: parts => if parts.all fun p => p == "" || p == "." || p == ".." then some .directory else none
  | parts => d.walk [] parts

def isPresent (d : Directory) (path : String) : Bool := (d.entry? path).isSome

def read (d : Directory) : Files := fun path =>
  match d.entry? path with
  | none => .error .notFound
  | some .directory => .error (.refused "Is a directory (os error 21)")
  | some (.file bytes) => .ok bytes

/-- Whether a file can be created: its directory must be there, and no directory in its place. -/
def create (d : Directory) (path : String) : Except FileError Unit :=
  let parts := path.splitOn "/"
  match d.entry? path with
  | some .directory => .error (.refused "Is a directory (os error 21)")
  | some (.file _) => .ok ()
  | none =>
    if parts.length = 1 ∨ d.isPresent ("/".intercalate parts.dropLast ++ "/") then .ok () else .error .notFound

end Directory
end MemoryBus.Scenario
