/-!
# Joining texts
-/

namespace Adventure.Text

def joinLines (lines : List String) : String := String.intercalate "\n" lines

/-- Blocks, with an empty line between them. -/
def joinBlocks (blocks : List String) : String := String.intercalate "\n\n" blocks

def enumerate (items : List String) : String := String.intercalate ", " items

end Adventure.Text
