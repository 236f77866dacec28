/-!
# Qualified names

A qualified name may hold the quoted path of a module and a point wherever a type is named.  Without
these qualifiers it is the name of the type as documents show it.
-/

namespace TypeSchema.QualifiedName

/--
Drops every quoted text that a point follows, and the point.  The second argument holds, in reverse,
what stands since a quotation mark that may still open a qualifier; a mark that closes no qualifier
opens the next one.
-/
def stripFrom : List Char → Option (List Char) → List Char
  | [], none => []
  | [], some quoted => '"' :: quoted.reverse
  | '"' :: rest, none => stripFrom rest (some [])
  | c :: rest, none => c :: stripFrom rest none
  | '"' :: '.' :: rest, some _ => stripFrom rest none
  | '"' :: rest, some quoted => '"' :: quoted.reverse ++ stripFrom rest (some [])
  | c :: rest, some quoted => stripFrom rest (some (c :: quoted))
termination_by structural text => text

def stripModulePath (name : String) : String := String.ofList (stripFrom name.toList none)

end TypeSchema.QualifiedName
