/-!
# What a search takes in

A search leaves out hidden elements and elements below one with presentational children, unless it
is told to take them in.
-/

namespace AriaLocator

/-- Which elements a search takes in besides the ordinary ones. -/
structure SearchOptions where
  /-- Also elements that are hidden. -/
  includeHidden : Bool := false
  /-- Also elements below one with presentational children. -/
  includePresentational : Bool := false
deriving DecidableEq, Repr, Hashable

end AriaLocator
