import PackageRisk.Pattern.Basic

/-!
# Excerpts

The surroundings of an occurrence: forty bytes of UTF-8 on either side, widened to whole
characters, with every run of blanks written as one space.
-/

namespace PackageRisk

/-- The fewest leading characters that take `bytes` bytes, or all if there are not that many. -/
def takeBytes : (bytes : Nat) → List Char → List Char
  | 0, _ => []
  | _ + 1, [] => []
  | bytes + 1, c :: rest => c :: takeBytes (bytes + 1 - c.utf8Size) rest

namespace Occurrence

/-- Bytes kept on either side of an occurrence. -/
def contextRadius : Nat := 40

/-- The characters of an occurrence and its surroundings. -/
def surroundings (o : Occurrence) : List Char :=
  (takeBytes contextRadius o.start.behind).reverse ++ o.text ++
    takeBytes contextRadius o.stop.ahead

/-- The surroundings with blanks collapsed. -/
def snippet (o : Occurrence) : String :=
  String.ofList (Text.collapse o.surroundings)

end Occurrence

end PackageRisk
