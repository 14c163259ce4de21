import RuleSurvey.Path

namespace RuleSurvey

/-!
A directory tree as a value: files with their bytes, symbolic links with the path they hold, and
directories. Of two entries with one name the first counts.

Permissions are not part of a tree: every file in it can be read and every directory listed. Nor are
special files, such as devices, sockets and pipes: an entry is a regular file, a link or a directory.
-/

/-- The names a directory entry can have. -/
def isEntryName (bytes : List UInt8) : Bool :=
  !bytes.isEmpty && bytes.length ≤ 255 && !bytes.contains Path.separator && !bytes.contains 0 &&
    bytes != Path.here && bytes != Path.up

structure EntryName where
  bytes : List UInt8
  legal : isEntryName bytes = true
deriving DecidableEq

def EntryName.ofBytes? (bytes : List UInt8) : Option EntryName :=
  if legal : isEntryName bytes = true then some ⟨bytes, legal⟩ else none

inductive Node where
  | file (content : List UInt8)
  | link (target : Path)
  | directory (entries : List (EntryName × Node))

/-- The entries of one directory. -/
abbrev Entries := List (EntryName × Node)

namespace Entries

def get? (entries : Entries) (name : List UInt8) : Option (EntryName × Node) :=
  entries.find? fun entry => entry.1.bytes == name

def erase (entries : Entries) (name : EntryName) : Entries :=
  entries.filter fun entry => entry.1 != name

def set (entries : Entries) (name : EntryName) (node : Node) : Entries :=
  (name, node) :: erase entries name

end Entries

end RuleSurvey
