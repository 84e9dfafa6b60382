import Adventure.Fault
/-!
# Connections to vendors

A vendor is connected at the first query, with the key of that moment.  Keys that are set later do
not change the connection.  A vendor that refuses a key stays unconnected.

This is the client that `getClient` makes once and keeps.
-/

namespace Adventure

/-- The key a vendor was connected with, if it was. -/
structure Connection where
  key : Option Value

namespace Connection

def none : Connection := ⟨.none⟩

/-- Connects with a key, unless there is a connection. -/
def connect (c : Connection) (key : Except Failure Value) : Except Failure Connection :=
  match c.key with
  | some _ => .ok c
  | .none => key.map fun k => ⟨some k⟩

def isKeyed (c : Connection) : Bool := c.key.any Value.holds

end Connection

end Adventure
