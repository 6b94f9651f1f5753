/-!
# Version
-/

namespace FreeSpace.Version

def major : Nat := 0

def minor : Nat := 1

def patch : Nat := 0

def text : String :=
  s!"{major}.{minor}.{patch}"

end FreeSpace.Version
