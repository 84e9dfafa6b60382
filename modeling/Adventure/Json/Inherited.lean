import Adventure.Json.Value
/-!
# Inherited names

Every object answers to a few names that it has not been given.  A table that is looked up by a name
from outside finds something under these names as well, and a message shows its text.

Main definition: `Value.inheritedText?`.
-/

namespace Adventure.Value

def inheritedFunctions : List String :=
  ["hasOwnProperty", "isPrototypeOf", "propertyIsEnumerable", "toLocaleString", "toString",
    "valueOf", "__defineGetter__", "__defineSetter__", "__lookupGetter__", "__lookupSetter__"]

def functionText (name : String) : String := "function " ++ name ++ "() \x7b [native code] \x7d"

/-- The text of what every object has under a name: a function, the function that makes objects, or
the object from which all others inherit. -/
def inheritedText? (name : String) : Option String :=
  if name ∈ inheritedFunctions then some (functionText name)
  else if name = "constructor" then some (functionText "Object")
  else if name = "__proto__" then some (text (object []))
  else none

end Adventure.Value
