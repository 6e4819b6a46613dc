import Sessions.Text

/-!
# Sessions.Files

The files of one directory: contents by name. A name ends at a zero byte. A name that is empty or
that leads to another directory cannot be opened. A name that stands for a directory itself opens,
but only to find that there is nothing to read.
-/

namespace Sessions

structure Files where
  contents : List (Text × Text)
deriving DecidableEq, Repr

namespace Files

def empty : Files := ⟨[]⟩

/-- Whether a path stands for the directory or for the one above it. -/
def isDirectory (path : Text) : Bool := path.untilNul == "." || path.untilNul == ".."

/-- Whether a path names a file of the directory, present or not. -/
def opens (path : Text) : Bool :=
  let p := path.untilNul
  p != [] && !p.contains (Text.byte '/') && !isDirectory path && p.length ≤ 255

/-- The contents of a file that exists; of a directory, no bytes. -/
def read? (fs : Files) (path : Text) : Option Text :=
  if isDirectory path then some []
  else if opens path then fs.contents.lookup path.untilNul
  else none

/-- Give a file new contents, if its path can be opened. -/
def write? (fs : Files) (path text : Text) : Option Files :=
  if opens path then
    some ⟨(path.untilNul, text) :: fs.contents.filter (·.1 != path.untilNul)⟩
  else none

/-- Give a file new contents; nothing happens if its path cannot be opened. -/
def put (fs : Files) (path text : Text) : Files := (fs.write? path text).getD fs

/-- Write behind the end of a file, which comes into being if it is not there. -/
def append? (fs : Files) (path text : Text) : Option Files :=
  fs.write? path ((fs.read? path).getD [] ++ text)

def delete (fs : Files) (path : Text) : Files :=
  ⟨fs.contents.filter (·.1 != path.untilNul)⟩

end Files
end Sessions
